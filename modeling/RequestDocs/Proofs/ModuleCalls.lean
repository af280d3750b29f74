import RequestDocs.Proofs.ModuleForests
/-!
# Calls on one tree

A tree that is changed in place by calls in any order, some of which are refused. A refused call
leaves the tree as it was, and all others keep its modules a forest of files to render.
-/

namespace RequestDocs

open Relation

/-- A step on a tree that is changed in place. What has changed before a fault stays changed. -/
abbrev TreeStep := EStateM Fault ModuleTree

namespace TreeStep

variable {α : Type}

def ofOperation (operation : ModuleTree → Except Fault (α × ModuleTree)) : TreeStep α := fun t =>
  match operation t with
  | .ok (a, t') => .ok a t'
  | .error fault => .error fault t

def update (action : ModuleAction) (change : Module → Module) (id : ModuleId) : TreeStep Unit :=
  ofOperation fun t => (t.update action change id).map ((), ·)

/-- The parent declares the module before it is there. -/
def attach (name : String) (parent : ModuleId) (group extension : Option String) :
    TreeStep ModuleId := do
  let index := (← get).modules.size
  let path := (← liftFault ((← get).get parent)).path.enter [name]
  update .attach (·.declaring index) parent
  modify (·.append [Module.fresh name path group extension])
  return .node index

def createFile (name extension : String) (parent : ModuleId) : TreeStep ModuleId := do
  let group := (← liftFault ((← get).get parent)).group
  attach name parent group (some extension)

def addImport (id : ModuleId) (item : Import) : TreeStep Unit := do
  if item.source = .module .detached then throw (.detached .importFrom)
  update .importInto (fun m => { m with imports := m.imports ++ [item] }) id

def declare (id : ModuleId) (d : Declaration) : TreeStep Unit :=
  update .declare (fun m => { m with declarations := m.declarations ++ [d] }) id

variable (name extension : String) (parent id : ModuleId)

theorem attach_eq (group extension : Option String) :
    attach name parent group extension = ofOperation (·.attach name parent group extension) := by
  funext t
  cases parent with
  | detached => rfl
  | node i =>
    cases hm : t.modules[i]? with
    | none =>
      have hget : t.get (.node i) = .error (.foreignModule i) := by simp [ModuleTree.get, hm]
      have hattach : t.attach name (.node i) group extension = .error (.foreignModule i) := by
        rw [ModuleTree.attach, hget]
        rfl
      change EStateM.bind (liftFault (t.get (.node i))) _ t = _
      rw [hget, ofOperation, hattach]
      rfl
    | some m =>
      have hget : t.get (.node i) = .ok m := ModuleTree.get_node hm
      have hupdate : update .attach (·.declaring t.modules.size) (.node i) t =
          .ok () (t.set i (m.declaring t.modules.size)) := by
        simp only [update, ofOperation, ModuleTree.update_node hm]
        rfl
      change EStateM.bind (liftFault (t.get (.node i))) _ t = _
      rw [hget, ofOperation, ModuleTree.attach_node hm, ModuleTree.attached_eq]
      exact bind_eq_of_ok hupdate

theorem createFile_eq :
    createFile name extension parent = ofOperation (·.createFile name extension parent) := by
  funext t
  change EStateM.bind (liftFault (t.get parent)) _ t = _
  cases hget : t.get parent with
  | error fault =>
    have hcreate : t.createFile name extension parent = .error fault := by
      rw [ModuleTree.createFile, hget]
      rfl
    rw [ofOperation, hcreate]
    rfl
  | ok m =>
    have hcreate : t.createFile name extension parent = t.attach name parent m.group (some extension) := by
      rw [ModuleTree.createFile, hget]
      rfl
    rw [ofOperation, hcreate]
    exact congrFun (attach_eq name parent m.group (some extension)) t

theorem addImport_eq (item : Import) :
    addImport id item = ofOperation fun t => (t.addImport id item).map ((), ·) := by
  funext t
  unfold addImport ofOperation ModuleTree.addImport
  split <;> rfl

/-- The step is carried out as a whole or not at all. -/
def Atomic (step : TreeStep α) : Prop := ∀ t fault t', step t = .error fault t' → t' = t

theorem atomic_ofOperation (operation : ModuleTree → Except Fault (α × ModuleTree)) :
    Atomic (ofOperation operation) := by
  intro t fault t' h
  unfold ofOperation at h
  split at h
  · cases h
  · cases h
    rfl

theorem map_of_ok {β : Type} {step : TreeStep α} {t t' : ModuleTree} {a : α} (h : step t = .ok a t')
    (f : α → β) : (f <$> step) t = .ok (f a) t' := by
  change EStateM.map f step t = _
  rw [EStateM.map, h]

theorem map_of_error {β : Type} {step : TreeStep α} {t t' : ModuleTree} {fault : Fault}
    (h : step t = .error fault t') (f : α → β) : (f <$> step) t = .error fault t' := by
  change EStateM.map f step t = _
  rw [EStateM.map, h]

theorem Atomic.map {β : Type} {step : TreeStep α} (h : Atomic step) (f : α → β) :
    Atomic (f <$> step) := by
  intro t fault t' hmap
  cases hstep : step t with
  | ok a u => simp [map_of_ok hstep] at hmap
  | error fault' u =>
    rw [map_of_error hstep] at hmap
    cases hmap
    exact h t fault t' hstep

end TreeStep

/-- What can be asked of a tree. Only lines and blocks are declared from outside. -/
inductive ModuleCall
  | createModule (name : String) (parent : ModuleId) (group : Option String)
  | createFile (name extension : String) (parent : ModuleId)
  | addImport (id : ModuleId) (item : Import)
  | declareLine (id : ModuleId) (text : String)
  | declareBlock (id : ModuleId) (lines : List String)

namespace ModuleCall

def ids : ModuleCall → List ModuleId
  | createModule _ parent _ => [parent]
  | createFile _ _ parent => [parent]
  | addImport id ⟨_, .module target⟩ => [id, target]
  | addImport id ⟨_, .literal _⟩ => [id]
  | declareLine id _ => [id]
  | declareBlock id _ => [id]

/-- The step of a call. The answer is the id of the module created, if one is. -/
def perform : ModuleCall → TreeStep (Option ModuleId)
  | createModule name parent group => some <$> TreeStep.attach name parent group none
  | createFile name extension parent => some <$> TreeStep.createFile name extension parent
  | addImport id item => (fun _ => none) <$> TreeStep.addImport id item
  | declareLine id text => (fun _ => none) <$> TreeStep.declare id (.line text)
  | declareBlock id lines => (fun _ => none) <$> TreeStep.declare id (.block lines)

theorem perform_atomic (call : ModuleCall) : call.perform.Atomic := by
  cases call with
  | createModule name parent group =>
    apply TreeStep.Atomic.map
    rw [TreeStep.attach_eq]
    exact TreeStep.atomic_ofOperation _
  | createFile name extension parent =>
    apply TreeStep.Atomic.map
    rw [TreeStep.createFile_eq]
    exact TreeStep.atomic_ofOperation _
  | addImport id item =>
    apply TreeStep.Atomic.map
    rw [TreeStep.addImport_eq]
    exact TreeStep.atomic_ofOperation _
  | declareLine => exact (TreeStep.atomic_ofOperation _).map _
  | declareBlock => exact (TreeStep.atomic_ofOperation _).map _

def outcome (call : ModuleCall) (t : ModuleTree) : ModuleTree × List ModuleId :=
  match call.perform t with
  | .ok answer t' => (t', answer.toList)
  | .error _ t' => (t', [])

def treeAfter (t : ModuleTree) (calls : List ModuleCall) : ModuleTree :=
  calls.foldl (fun t call => (call.outcome t).1) t

/-- Every call is made with the detached module and with ids given out before: some at first, and
later those that calls have answered. -/
def Minted : (given : List ModuleId) → ModuleTree → List ModuleCall → Prop
  | _, _, [] => True
  | given, t, call :: calls => (∀ id ∈ call.ids, id = .detached ∨ id ∈ given) ∧
      Minted (given ++ (call.outcome t).2) (call.outcome t).1 calls

instance decidableMinted : (given : List ModuleId) → (t : ModuleTree) → (calls : List ModuleCall) →
    Decidable (Minted given t calls)
  | _, _, [] => .isTrue trivial
  | given, t, call :: calls =>
    have := decidableMinted (given ++ (call.outcome t).2) (call.outcome t).1 calls
    inferInstanceAs (Decidable (_ ∧ _))

end ModuleCall

namespace ModuleTree

variable {t t' : ModuleTree} {given : List ModuleId} {id : ModuleId} {i : Nat} {m : Module}

/-- What calls keep: a forest in range, that has all modules whose ids have been given out. -/
structure Grown (given : List ModuleId) (t : ModuleTree) : Prop where
  forest : t.Forest
  inRange : t.InRange fun _ => True
  has : ∀ id ∈ given, t.Has id

theorem empty_grown : empty.Grown [root] where
  forest := empty_forest
  inRange := empty_inRange
  has _ hid := List.mem_singleton.1 hid ▸ ⟨0, Nat.zero_lt_one, rfl⟩

theorem Grown.attached (h : t.Grown given) (hm : t.modules[i]? = some m) (name : String)
    (group extension : Option String) :
    (t.attached i m (.fresh name (m.path.enter [name]) group extension)).Grown
      (given ++ [.node t.modules.size]) where
  forest := h.forest.attached hm name group extension
  inRange := by
    have hparent : t.At (.node i) m.path m.fileName := ⟨i, m, rfl, hm, rfl, rfl⟩
    obtain ⟨r, hr, hextends, -⟩ := attach_ok h.inRange name hparent group extension
    rw [attach_node hm] at hr
    cases hr
    exact hextends.inRange
  has id hid := by
    rcases List.mem_append.1 hid with hid | hid
    · exact (h.has id hid).mono (by simp)
    · rw [List.mem_singleton.1 hid]
      exact ⟨t.modules.size, by simp, rfl⟩

private theorem Grown.set (h : t.Grown given) (hm : t.modules[i]? = some m) {n : Module}
    (hname : n.name = m.name) (hpath : n.path = m.path) (hchildren : n.children = m.children)
    (hextends : (t.set i n).InRange fun _ => True) : (t.set i n).Grown (given ++ []) where
  forest := h.forest.set hm hname hpath hchildren
  inRange := hextends
  has id hid := (h.has id (by simpa using hid)).mono (by simp)

theorem Grown.declare (h : t.Grown given) (hm : t.modules[i]? = some m) {d : Declaration}
    (hd : Module.isNested d = false) :
    (t.set i { m with declarations := m.declarations ++ [d] }).Grown (given ++ []) := by
  refine h.set hm rfl rfl (m.children_own d hd) ?_
  have hplace : t.At (.node i) m.path m.fileName := ⟨i, m, rfl, hm, rfl, rfl⟩
  obtain ⟨t', hdeclare, hextends⟩ := declare_ok h.inRange hplace trivial hd
  rw [declare_node hm] at hdeclare
  cases hdeclare
  exact hextends.inRange

theorem Grown.addImport (h : t.Grown given) (hm : t.modules[i]? = some m) {item : Import}
    (hitem : ∀ target, item.source = .module target → t.Has target) :
    (t.set i { m with imports := m.imports ++ [item] }).Grown (given ++ []) := by
  refine h.set hm rfl rfl rfl ?_
  have hplace : t.At (.node i) m.path m.fileName := ⟨i, m, rfl, hm, rfl, rfl⟩
  have hsource : item.source ≠ .module .detached := fun heq => (hitem .detached heq).ne_detached rfl
  obtain ⟨t', himport, hextends⟩ := addImport_ok h.inRange hplace trivial hitem
  rw [addImport_node hm hsource] at himport
  cases himport
  exact hextends.inRange

end ModuleTree

namespace ModuleCall

open ModuleTree

variable {t : ModuleTree} {given : List ModuleId} {call : ModuleCall} {calls : List ModuleCall}

/-- The step is refused for the detached module, or adds to the tree and gives out what it answers. -/
def Grows (given : List ModuleId) (t : ModuleTree) (step : TreeStep (Option ModuleId)) : Prop :=
  (∃ action, step t = .error (.detached action) t) ∨
    ∃ answer t', step t = .ok answer t' ∧ t'.Grown (given ++ answer.toList)

private theorem cases_of_given (h : t.Grown given) {id : ModuleId} (hid : id = .detached ∨ id ∈ given) :
    id = .detached ∨ ∃ i m, id = .node i ∧ t.modules[i]? = some m := by
  refine hid.imp_right fun hid => ?_
  obtain ⟨i, m, heq, hm, -⟩ := get_ok (h.has id hid)
  exact ⟨i, m, heq, hm⟩

private theorem grows_of_attached (h : t.Grown given) {i : Nat} {m : Module} (hm : t.modules[i]? = some m)
    {step : TreeStep ModuleId} {name : String} {group extension : Option String}
    (hstep : step t = .ok (.node t.modules.size)
      (t.attached i m (.fresh name (m.path.enter [name]) group extension))) :
    Grows given t (some <$> step) :=
  .inr ⟨_, _, TreeStep.map_of_ok hstep some, h.attached hm name group extension⟩

private theorem createModule_grows (h : t.Grown given) (name : String) {parent : ModuleId}
    (hparent : parent = .detached ∨ parent ∈ given) (group : Option String) :
    Grows given t (perform (.createModule name parent group)) := by
  rcases cases_of_given h hparent with rfl | ⟨i, m, rfl, hm⟩
  · exact .inl ⟨.attach, rfl⟩
  · apply grows_of_attached h hm
    rw [TreeStep.attach_eq, TreeStep.ofOperation, attach_node hm]

private theorem createFile_grows (h : t.Grown given) (name extension : String) {parent : ModuleId}
    (hparent : parent = .detached ∨ parent ∈ given) :
    Grows given t (perform (.createFile name extension parent)) := by
  rcases cases_of_given h hparent with rfl | ⟨i, m, rfl, hm⟩
  · exact .inl ⟨.attach, rfl⟩
  · apply grows_of_attached h hm
    rw [TreeStep.createFile_eq, TreeStep.ofOperation, createFile_node hm]

private theorem declare_grows (h : t.Grown given) {id : ModuleId} (hid : id = .detached ∨ id ∈ given)
    {d : Declaration} (hd : Module.isNested d = false) :
    Grows given t ((fun _ => none) <$> TreeStep.declare id d) := by
  rcases cases_of_given h hid with rfl | ⟨i, m, rfl, hm⟩
  · exact .inl ⟨.declare, rfl⟩
  · have hstep : TreeStep.declare (.node i) d t =
        .ok () (t.set i { m with declarations := m.declarations ++ [d] }) := by
      simp only [TreeStep.declare, TreeStep.update, TreeStep.ofOperation, update_node hm]
      rfl
    exact .inr ⟨none, _, TreeStep.map_of_ok hstep _, h.declare hm hd⟩

private theorem addImport_grows (h : t.Grown given) {id : ModuleId} (hid : id = .detached ∨ id ∈ given)
    {item : Import} (hitem : ∀ target, item.source = .module target → target = .detached ∨ target ∈ given) :
    Grows given t (perform (.addImport id item)) := by
  have himport := congrFun (TreeStep.addImport_eq id item) t
  by_cases hsource : item.source = .module .detached
  · have hstep : TreeStep.addImport id item t = .error (.detached .importFrom) t := by
      rw [TreeStep.addImport, if_pos hsource]
      rfl
    exact .inl ⟨.importFrom, TreeStep.map_of_error hstep _⟩
  · rcases cases_of_given h hid with rfl | ⟨i, m, rfl, hm⟩
    · have hstep : TreeStep.addImport .detached item t = .error (.detached .importInto) t := by
        rw [himport, TreeStep.ofOperation, ModuleTree.addImport, if_neg hsource]
        rfl
      exact .inl ⟨.importInto, TreeStep.map_of_error hstep _⟩
    · have hstep : TreeStep.addImport (.node i) item t =
          .ok () (t.set i { m with imports := m.imports ++ [item] }) := by
        rw [himport, TreeStep.ofOperation, addImport_node hm hsource]
        rfl
      refine .inr ⟨none, _, TreeStep.map_of_ok hstep _, h.addImport hm fun target htarget => ?_⟩
      have hne : target ≠ .detached := fun heq => hsource (heq ▸ htarget)
      exact h.has target ((hitem target htarget).resolve_left hne)

/-- A call with the detached module is refused, and every other one adds to the tree. -/
theorem perform_grows (h : t.Grown given) (hids : ∀ id ∈ call.ids, id = .detached ∨ id ∈ given) :
    Grows given t call.perform := by
  cases call with
  | createModule name parent group => exact createModule_grows h name (hids parent (by simp [ids])) group
  | createFile name extension parent =>
    exact createFile_grows h name extension (hids parent (by simp [ids]))
  | addImport id item =>
    obtain ⟨binder, source⟩ := item
    refine addImport_grows h (hids id ?_) fun target htarget => hids target ?_
    · cases source <;> simp [ids]
    · cases htarget
      simp [ids]
  | declareLine id text => exact declare_grows h (hids id (by simp [ids])) rfl
  | declareBlock id lines => exact declare_grows h (hids id (by simp [ids])) rfl

theorem outcome_grown (h : t.Grown given) (hids : ∀ id ∈ call.ids, id = .detached ∨ id ∈ given) :
    (call.outcome t).1.Grown (given ++ (call.outcome t).2) := by
  unfold outcome
  rcases perform_grows h hids with ⟨action, hrefused⟩ | ⟨answer, t', hok, hgrown⟩
  · rw [hrefused]
    simpa using h
  · rw [hok]
    exact hgrown

theorem grown_before {before later : List ModuleCall} (h : t.Grown given)
    (hminted : Minted given t (before ++ later)) : ∃ given', (treeAfter t before).Grown given' ∧
      Minted given' (treeAfter t before) later := by
  induction before generalizing t given with
  | nil => exact ⟨given, h, hminted⟩
  | cons call before ih =>
    obtain ⟨hids, hrest⟩ := hminted
    exact ih (outcome_grown h hids) hrest

/-- However calls are mixed: those refused leave the tree as it was, every module but the root is
declared once, by an earlier one that its path leads through, and rendering comes to one file for
each module that has content, depth first in the order of declaration. -/
theorem treeAfter_renders (calls : List ModuleCall) (h : Minted [root] .empty calls) :
    (∀ before call later, calls = before ++ call :: later → ∀ fault t',
      call.perform (treeAfter .empty before) = .error fault t' →
        (∃ action, fault = .detached action) ∧ t' = treeAfter .empty before) ∧
    (∀ i n, 0 < i → (treeAfter .empty calls).modules[i]? = some n →
      (treeAfter .empty calls).declared.count (.node i) = 1 ∧
      ∃ p m, p < i ∧ (treeAfter .empty calls).modules[p]? = some m ∧ .node i ∈ m.children ∧
        n.path.segments = m.path.segments ++ [n.name]) ∧
    Succeeds (treeAfter .empty calls).render fun files => ∃ order : List Nat, order.Nodup ∧
      (∀ i, i ∈ order ↔ (treeAfter .empty calls).HasFile i) ∧
      order.Pairwise (treeAfter .empty calls).Precedes ∧
      List.Forall₂ (treeAfter .empty calls).IsFileOf order files := by
  have hwhole : Minted [root] .empty (calls ++ []) := by rwa [List.append_nil]
  obtain ⟨given, hgrown, -⟩ := grown_before empty_grown hwhole
  refine ⟨fun before call later hcalls fault t' hrefused => ?_, fun i n hpos hn => ?_, ?_⟩
  · rw [hcalls] at h
    obtain ⟨given', hgrown', hids, -⟩ := grown_before empty_grown h
    refine ⟨?_, call.perform_atomic _ fault t' hrefused⟩
    rcases perform_grows hgrown' hids with ⟨action, hdetached⟩ | ⟨answer, u, hok, -⟩
    · rw [hrefused] at hdetached
      cases hdetached
      exact ⟨action, rfl⟩
    · rw [hrefused] at hok
      cases hok
  · exact ⟨hgrown.forest.count_declared hpos (lt_size hn), hgrown.forest.exists_parent hpos hn⟩
  · exact hgrown.forest.renders hgrown.inRange

def petCalls : List ModuleCall := [
  .createModule "Pets" root (some "Pets"),
  .declareLine .detached "lost",
  .createModule "models" (.node 1) none,
  .createFile "Pet" "jsonc" (.node 2),
  .createFile "pets_get" "http" (.node 1),
  .addImport (.node 3) ⟨.default "Owner", .module .detached⟩,
  .addImport (.node 3) ⟨.named ["Pet"], .literal "api.yaml"⟩,
  .declareBlock (.node 3) ["\x7b", "\x7d"],
  .createModule "lost" .detached none,
  .declareLine (.node 4) "### get"]

theorem petCalls_render : Minted [root] .empty petCalls ∧
    Succeeds (treeAfter .empty petCalls).render fun files => ∃ order : List Nat, order.Nodup ∧
      (∀ i, i ∈ order ↔ (treeAfter .empty petCalls).HasFile i) ∧
      order.Pairwise (treeAfter .empty petCalls).Precedes ∧
      List.Forall₂ (treeAfter .empty petCalls).IsFileOf order files := by
  have hminted : Minted [root] .empty petCalls := by decide
  exact ⟨hminted, (treeAfter_renders petCalls hminted).2.2⟩

end ModuleCall

end RequestDocs
