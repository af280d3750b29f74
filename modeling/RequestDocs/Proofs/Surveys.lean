import RequestDocs.Proofs.Descriptions
import RequestDocs.Proofs.Identifiers
import RequestDocs.Proofs.NestedRecords
import RequestDocs.Request.Assembly
/-!
# Surveys

What a synthesis comes to whatever names are in use: the sample without its notes, the records it
announces to the queue, and the kinds of its issues.
-/

namespace RequestDocs

theorem mem_of_lookup {α β : Type} [BEq α] [LawfulBEq α] {xs : List (α × β)} {a : α} {b : β}
    (h : xs.lookup a = some b) : (a, b) ∈ xs := by
  obtain ⟨before, after, heq, -⟩ := List.lookup_eq_some_iff.1 h
  simp [heq]

inductive Issue.Kind
  | unrepresentableUnion
  | unmappedScalar
deriving DecidableEq

def Issue.kind : Issue → Issue.Kind
  | unrepresentableUnion .. => .unrepresentableUnion
  | unmappedScalar .. => .unmappedScalar

inductive Outline
  | leaf (value : String)
  | block (entries : List (String × Outline))

namespace Sample

mutual

def outline : Sample → Outline
  | leaf l => .leaf l.value
  | block _ entries => .block (outlineEntries entries)

def outlineEntries : List (String × Sample) → List (String × Outline)
  | [] => []
  | (key, sample) :: entries => (key, outline sample) :: outlineEntries entries

end

end Sample

namespace VisitQueue

variable {α : Type} [DecidableEq α]

/-- The queue after items have been announced to it one by one. -/
def announce (q : VisitQueue α) (items : List α) : VisitQueue α :=
  items.foldl (fun q item => (q.enqueue item).2) q

@[simp] theorem announce_nil (q : VisitQueue α) : q.announce [] = q := rfl

theorem announce_cons (q : VisitQueue α) (item : α) (items : List α) :
    q.announce (item :: items) = (q.enqueue item).2.announce items := rfl

@[simp] theorem announce_singleton (q : VisitQueue α) (item : α) :
    q.announce [item] = (q.enqueue item).2 := rfl

theorem announce_append (q : VisitQueue α) (items items' : List α) :
    q.announce (items ++ items') = (q.announce items).announce items' := by
  simp [announce, List.foldl_append]

theorem mem_seen_announce (q : VisitQueue α) (items : List α) (x : α) :
    x ∈ (q.announce items).seen ↔ x ∈ q.seen ∨ x ∈ items := by
  induction items generalizing q with
  | nil => simp
  | cons item items ih =>
    rw [announce_cons, ih, mem_seen_enqueue, List.mem_cons, or_assoc]

theorem pending_announce (q : VisitQueue α) (items : List α) :
    ∃ fresh, (q.announce items).pending = q.pending ++ fresh ∧
      (q.announce items).seen = q.seen ++ fresh ∧ fresh.Nodup ∧ ∀ x ∈ fresh, x ∉ q.seen := by
  induction items generalizing q with
  | nil => exact ⟨[], by simp, by simp, List.nodup_nil, by simp⟩
  | cons item items ih =>
    obtain ⟨fresh, hpending, hseen, hnodup, hnew⟩ := ih (q.enqueue item).2
    rw [announce_cons]
    -- Only an item that has not been seen joins the queue.
    by_cases hmem : item ∈ q.seen
    · rw [enqueue_of_mem hmem] at hpending hseen hnew ⊢
      exact ⟨fresh, hpending, hseen, hnodup, hnew⟩
    · rw [enqueue_of_not_mem hmem] at hpending hseen hnew ⊢
      refine ⟨item :: fresh, by simp [hpending], by simp [hseen], ?_, ?_⟩
      · have hitem : item ∉ fresh := fun hf => hnew item hf (by simp)
        exact List.nodup_cons.2 ⟨hitem, hnodup⟩
      · intro x hx
        rcases List.mem_cons.1 hx with rfl | hx
        · exact hmem
        · intro hseen
          exact hnew x hx (List.mem_append_left _ hseen)

def accept (seen items : List α) : List α :=
  items.foldl (fun seen item => if item ∈ seen then seen else seen ++ [item]) seen

theorem accept_append (seen items items' : List α) :
    accept seen (items ++ items') = accept (accept seen items) items' := by
  simp [accept, List.foldl_append]

theorem accept_of_subset {seen items : List α} (h : items ⊆ seen) : accept seen items = seen := by
  induction items with
  | nil => rfl
  | cons item items ih =>
    obtain ⟨hitem, hitems⟩ := List.cons_subset.1 h
    have hrest := ih hitems
    simpa [accept, hitem] using hrest

theorem seen_announce (q : VisitQueue α) (items : List α) :
    (q.announce items).seen = accept q.seen items := by
  induction items generalizing q with
  | nil => rfl
  | cons item items ih =>
    rw [announce_cons, ih]
    by_cases hmem : item ∈ q.seen <;> simp [accept, enqueue, hasSeen, hmem]

theorem mem_accept {seen items : List α} {x : α} : x ∈ accept seen items ↔ x ∈ seen ∨ x ∈ items := by
  have hmem := mem_seen_announce ⟨seen, []⟩ items x
  rwa [seen_announce] at hmem

theorem announce_of_subset {q : VisitQueue α} {items : List α} (h : items ⊆ q.seen) :
    q.announce items = q := by
  induction items with
  | nil => rfl
  | cons item items ih =>
    obtain ⟨hitem, hitems⟩ := List.cons_subset.1 h
    rw [announce_cons, enqueue_of_mem hitem, ih hitems]

end VisitQueue

namespace NameRegistry

/-- Names once given are kept, and those given since are identifiers that were not in use. -/
structure Keeps (r r' : NameRegistry) : Prop where
  kept : ∀ id name, r.nameOf? id = some name → r'.nameOf? id = some name
  fresh : ∀ name ∈ r'.used, name ∈ r.used ∨ IsIdentifier name
  distinct : r.used.Nodup → r'.used.Nodup

theorem Keeps.refl (r : NameRegistry) : r.Keeps r := ⟨fun _ _ h => h, fun _ => .inl, id⟩

theorem Keeps.trans {r r' r'' : NameRegistry} (h : r.Keeps r') (h' : r'.Keeps r'') : r.Keeps r'' where
  kept id name hname := h'.kept id name (h.kept id name hname)
  fresh name hname := (h'.fresh name hname).elim (h.fresh name) .inr
  distinct hdistinct := h'.distinct (h.distinct hdistinct)

theorem mem_used_of_nameOf {r : NameRegistry} {id : TypeId} {name : String}
    (h : r.nameOf? id = some name) : name ∈ r.used := by
  rw [r.inStep]
  exact List.mem_map_of_mem (mem_of_lookup h)

theorem nameOf?_inj {r : NameRegistry} (h : r.used.Nodup) {id id' : TypeId} {name : String}
    (hname : r.nameOf? id = some name) (hname' : r.nameOf? id' = some name) : id = id' := by
  rw [r.inStep] at h
  exact congrArg Prod.fst
    (List.inj_on_of_nodup_map h (mem_of_lookup hname) (mem_of_lookup hname') rfl)

theorem keeps_insert {r : NameRegistry} (id : TypeId) {name : String} (hfresh : name ∉ r.used)
    (hname : IsIdentifier name) : r.Keeps (r.insert id name) where
  kept id' name' h := by
    rw [nameOf?_insert, h]
    rfl
  fresh other h := by
    rw [used_insert, List.mem_append, List.mem_singleton] at h
    refine h.imp_right ?_
    rintro rfl
    exact hname
  distinct h := by
    rw [used_insert, List.nodup_append_comm]
    exact List.nodup_cons.2 ⟨hfresh, h⟩

theorem nameFor_ok [Spelling] {g : TypeGraph} (r : NameRegistry) {id : TypeId} (hid : g.Has id)
    (hint : String) :
    Succeeds (r.nameFor g id hint) fun named => r.Keeps named.2 ∧ named.2.nameOf? id = some named.1 := by
  unfold nameFor
  split
  · next name hname => exact .pure ⟨.refl r, hname⟩
  · next hnone =>
    refine .bind (TypeGraph.get_ok hid) fun node _ => .pure ⟨?_, nameOf?_insert_self hnone _⟩
    have hbase := (Naming.isTypeName_typeName (node.declaredName?.getD hint)).isIdentifier
    exact keeps_insert id (Naming.unique_not_mem _ _) (Naming.isIdentifier_unique hbase _)

theorem keeps_of_nameFor [Spelling]
    {g : TypeGraph} {r r' : NameRegistry} {id : TypeId} {hint name : String}
    (h : r.nameFor g id hint = .ok (name, r')) : r.Keeps r' := by
  cases hnode : g.get id with
  | ok node =>
    obtain ⟨_, hnamed, hkeeps, -⟩ := r.nameFor_ok (TypeGraph.has_of_get hnode) hint
    cases h.symm.trans hnamed
    exact hkeeps
  | error fault =>
    -- Only a type that had its name before gets it without a node.
    unfold nameFor at h
    split at h
    · cases h
      exact .refl r
    · rw [hnode] at h
      cases h

def named (r : NameRegistry) : List TypeId := r.names.map Prod.fst

theorem nameOf?_eq_none_iff {r : NameRegistry} {id : TypeId} : r.nameOf? id = none ↔ id ∉ r.named := by
  rw [nameOf?, List.lookup_eq_none_iff]
  constructor
  · intro h hmem
    obtain ⟨entry, hentry, rfl⟩ := List.mem_map.1 hmem
    simpa using h entry hentry
  · intro h entry hentry
    rw [bne_iff_ne]
    rintro rfl
    exact h (List.mem_map_of_mem hentry)

theorem Keeps.named_subset {r r' : NameRegistry} (h : r.Keeps r') : r.named ⊆ r'.named := by
  intro id hid
  by_contra hnot
  cases hname : r.nameOf? id with
  | none => exact nameOf?_eq_none_iff.1 hname hid
  | some name => cases (h.kept id name hname).symm.trans (nameOf?_eq_none_iff.2 hnot)

/-- What becomes of names when types ask for theirs one by one: a type gets a name the first time,
after all that have one, and nothing else changes. -/
structure Gives (ids : List TypeId) (r r' : NameRegistry) : Prop where
  grown : r.names <+: r'.names
  named : r'.named = VisitQueue.accept r.named ids

theorem Gives.refl (r : NameRegistry) : Gives [] r r := ⟨List.prefix_rfl, rfl⟩

theorem Gives.trans {ids ids' : List TypeId} {r r' r'' : NameRegistry} (h : Gives ids r r')
    (h' : Gives ids' r' r'') : Gives (ids ++ ids') r r'' where
  grown := h.grown.trans h'.grown
  named := by rw [h'.named, h.named, VisitQueue.accept_append]

theorem Gives.subset_named {ids : List TypeId} {r r' : NameRegistry} (h : Gives ids r r') :
    ids ⊆ r'.named := by
  intro id hid
  rw [h.named]
  exact VisitQueue.mem_accept.2 (.inr hid)

theorem Gives.eq_of_subset {ids : List TypeId} {r r' : NameRegistry} (h : Gives ids r r')
    (hids : ids ⊆ r.named) : r' = r := by
  have hnamed : r'.named = r.named := h.named.trans (VisitQueue.accept_of_subset hids)
  have hlength : r.names.length = r'.names.length := by
    simpa [NameRegistry.named] using congrArg List.length hnamed.symm
  exact eq_of_names (h.grown.eq_of_length hlength).symm

theorem nameFor_gives [Spelling]
    {g : TypeGraph} {r r' : NameRegistry} {id : TypeId} {hint name : String}
    (h : r.nameFor g id hint = .ok (name, r')) : Gives [id] r r' := by
  unfold nameFor at h
  split at h
  · next hname =>
    cases h
    have hmem : id ∈ r.named := by
      by_contra hnot
      cases hname.symm.trans (nameOf?_eq_none_iff.2 hnot)
    exact ⟨List.prefix_rfl, (VisitQueue.accept_of_subset (by simpa using hmem)).symm⟩
  · next hnone =>
    have hnot : id ∉ r.named := nameOf?_eq_none_iff.1 hnone
    cases hnode : g.get id with
    | error fault =>
      rw [hnode] at h
      cases h
    | ok node =>
      rw [hnode] at h
      cases h
      exact ⟨List.prefix_append _ _, by simpa [named, VisitQueue.accept] using hnot⟩

end NameRegistry

structure Survey where
  outline : Outline
  announced : List TypeId
  issues : List Issue.Kind

private theorem Sample.outlineEntries_eq {entries : List (String × Sample)}
    {surveyed : List (String × Survey)} (h : List.Forall₂
      (fun entry surveyed => entry.1 = surveyed.1 ∧ entry.2.outline = surveyed.2.outline)
      entries surveyed) :
    outlineEntries entries = surveyed.map fun entry => (entry.1, entry.2.outline) := by
  induction h with
  | nil => rfl
  | cons hfirst _ ih => simp [outlineEntries, hfirst, ih]

namespace Synthesis

def recordsAmong (g : TypeGraph) : List TypeId → Except Fault (List TypeId)
  | [] => return []
  | id :: ids => do
    let node ← g.get id
    let rest ← recordsAmong g ids
    return if node.isRecord then id :: rest else rest

def surveyBelow [Spelling] (g : TypeGraph) : (room : Nat) → (above : List TypeId) → TypeId →
    Except Fault Survey
  | room, above, id => do
    match ← g.get id with
    | .scalar name =>
      return ⟨.leaf (Sample.scalar name), [],
        if (Sample.scalar? name).isNone then [.unmappedScalar] else []⟩
    | .literal value => return ⟨.leaf value.print, [], []⟩
    | .union _ variants =>
      let records ← recordsAmong g variants
      let literal ← firstLiteral? g variants
      return ⟨.leaf ((literal.map Json.print).getD "null"), records,
        if literal.isNone then [.unrepresentableUnion] else []⟩
    | .array element => return ⟨.leaf "[]", ← recordsAmong g [element], []⟩
    | .unknown _ => return ⟨.leaf "null", [], []⟩
    | .record .. =>
      if id ∈ above then return ⟨.leaf "\x7b\x7d", [id], []⟩
      else match room with
        | 0 => return ⟨.leaf "\x7b\x7d", [id], []⟩
        | room + 1 =>
          let entries ← (← g.allFields id).mapM fun field => do
            return (Naming.fieldName field.name, ← surveyBelow g room (id :: above) field.type)
          return {
            outline := .block (entries.map fun entry => (entry.1, entry.2.outline))
            announced := id :: entries.flatMap fun entry => entry.2.announced
            issues := entries.flatMap fun entry => entry.2.issues }

def survey [Spelling] (g : TypeGraph) (maxDepth : Nat) (root : TypeId) : Except Fault Survey :=
  surveyBelow g (max maxDepth 1) [] root

variable {g : TypeGraph} {α β : Type}

/-- What becomes of the state when ids are announced and issues of some kinds are met. -/
structure Moves (ids : List TypeId) (kinds : List Issue.Kind) (s t : SynthesisState) : Prop where
  names : s.registry.Keeps t.registry
  queue : t.queue = s.queue.announce ids
  issues : t.issues.map Issue.kind = s.issues.map Issue.kind ++ kinds
  given : s.registry.Gives ids t.registry

theorem Moves.refl (s : SynthesisState) : Moves [] [] s s := ⟨.refl _, rfl, by simp, .refl _⟩

theorem Moves.trans {ids ids' : List TypeId} {kinds kinds' : List Issue.Kind}
    {s t u : SynthesisState} (h : Moves ids kinds s t) (h' : Moves ids' kinds' t u) :
    Moves (ids ++ ids') (kinds ++ kinds') s u where
  names := h.names.trans h'.names
  queue := by rw [h'.queue, h.queue, VisitQueue.announce_append]
  issues := by rw [h'.issues, h.issues, List.append_assoc]
  given := h.given.trans h'.given

/-- From every state the step announces the ids, meets issues of the kinds, and its result has a
property. -/
def Behaves (step : Synthesis α) (ids : List TypeId) (kinds : List Issue.Kind) (P : α → Prop) :
    Prop :=
  ∀ s, Completes step s fun a t => P a ∧ Moves ids kinds s t

namespace Behaves

variable {ids ids' : List TypeId} {kinds kinds' : List Issue.Kind} {P : α → Prop} {Q : β → Prop}

theorem pure {a : α} (h : P a) : Behaves (Pure.pure a) [] [] P := by
  intro s
  exact .pure ⟨h, .refl s⟩

theorem bind {step : Synthesis α} {next : α → Synthesis β} (h : Behaves step ids kinds P)
    (hnext : ∀ a, P a → Behaves (next a) ids' kinds' Q) :
    Behaves (step >>= next) (ids ++ ids') (kinds ++ kinds') Q := by
  intro s
  refine .bind (h s) fun a t ⟨ha, hmoves⟩ => ?_
  exact (hnext a ha t).mono fun b u ⟨hb, hmoves'⟩ => ⟨hb, hmoves.trans hmoves'⟩

theorem bind_silent {step : Synthesis α} {next : α → Synthesis β} (h : Behaves step [] [] P)
    (hnext : ∀ a, P a → Behaves (next a) ids kinds Q) : Behaves (step >>= next) ids kinds Q :=
  h.bind hnext

theorem map {step : Synthesis α} {f : α → β} (h : Behaves step ids kinds P)
    (hf : ∀ a, P a → Q (f a)) : Behaves (step >>= fun a => Pure.pure (f a)) ids kinds Q := by
  have hbind := h.bind fun a ha => pure (hf a ha)
  simpa using hbind

theorem lift {x : Except Fault α} (h : Succeeds x P) : Behaves (liftFault x) [] [] P := by
  intro s
  exact .lift h fun a ha => ⟨ha, .refl s⟩

theorem get_bind {next : SynthesisState → Synthesis β}
    (h : ∀ s, Behaves (next s) ids kinds Q) : Behaves (get >>= next) ids kinds Q := by
  intro s
  exact .get_bind (h s s)

theorem mapM_silent {step : α → Synthesis β} (xs : List α)
    (h : ∀ x ∈ xs, Behaves (step x) [] [] fun _ => True) :
    Behaves (xs.mapM step) [] [] fun _ => True := by
  induction xs with
  | nil => exact pure trivial
  | cons x xs ih =>
    rw [List.mapM_cons]
    refine bind_silent (h x List.mem_cons_self) fun y _ => ?_
    exact map (ih fun x' hx' => h x' (List.mem_cons_of_mem x hx')) fun _ _ => trivial

theorem mapM {γ ι : Type} {survey : α → Except Fault γ} {step : ι → α → Synthesis β}
    {ids : γ → List TypeId} {kinds : γ → List Issue.Kind} {R : β → γ → Prop} (xs : List α)
    (h : ∀ x ∈ xs, Succeeds (survey x) fun c => ∀ i, Behaves (step i x) (ids c) (kinds c) (R · c)) :
    Succeeds (xs.mapM survey) fun cs => ∀ i,
      Behaves (xs.mapM (step i)) (cs.flatMap ids) (cs.flatMap kinds) (List.Forall₂ R · cs) := by
  induction xs with
  | nil => exact .pure fun _ => pure .nil
  | cons x xs ih =>
    rw [List.mapM_cons]
    refine .bind (h x List.mem_cons_self) fun c hc => ?_
    refine .bind (ih fun x' hx' => h x' (List.mem_cons_of_mem x hx')) fun cs hcs => .pure fun i => ?_
    rw [List.mapM_cons, List.flatMap_cons, List.flatMap_cons]
    exact bind (hc i) fun y hy => map (hcs i) fun ys hys => .cons hy hys

end Behaves

end Synthesis

namespace Synthesis

variable {id : TypeId} {node : TypeNode}

private theorem discover_behaves [Spelling] (hid : g.Has id) (hint : String) :
    Behaves (discover g id hint) [id] [] fun _ => True := by
  intro s
  refine .get_bind (.lift_bind (s.registry.nameFor_ok hid hint).eqn
    fun (name, registry) ⟨hname, hkeeps, _⟩ => ?_)
  have hmoves : Moves [id] [] s ⟨registry, (s.queue.enqueue id).2, s.issues⟩ :=
    ⟨hkeeps, rfl, by simp, NameRegistry.nameFor_gives hname⟩
  exact .bind (M := fun _ t => Moves [id] [] s t) (.set hmoves) fun _ t ht => .pure ⟨trivial, ht⟩

private theorem discoverIfRecord_behaves [Spelling] (hnode : g.get id = .ok node) (hint : String) :
    Behaves (discoverIfRecord g id hint) (if node.isRecord then [id] else []) [] fun _ => True := by
  unfold discoverIfRecord
  refine .bind_silent (.lift ⟨node, hnode, rfl⟩) fun _ h => ?_
  subst h
  by_cases hrecord : node.isRecord
  · simp only [hrecord, if_true]
    exact .map (discover_behaves (TypeGraph.has_of_get hnode) hint) fun _ _ => trivial
  · simp only [hrecord]
    exact .pure trivial

private theorem discoverVariants_behaves [Spelling]
    (variants : List TypeId) (hv : ∀ v ∈ variants, g.Has v) :
    Succeeds (recordsAmong g variants) fun records => ∀ hint place,
      Behaves (discoverVariants g hint place variants) records [] fun _ => True := by
  induction variants with
  | nil => exact .pure fun _ _ => .pure trivial
  | cons v vs ih =>
    refine .bind (TypeGraph.get_ok (hv v List.mem_cons_self)) fun node hnode => ?_
    refine .bind (ih fun v' hv' => hv v' (List.mem_cons_of_mem v hv')) fun records hrecords => ?_
    refine .pure fun hint place => ?_
    have hfirst := discoverIfRecord_behaves hnode (hint ++ "Variant" ++ toString place)
    have hall := hfirst.bind fun _ _ => hrecords hint (place + 1)
    by_cases hrecord : node.isRecord <;>
    · simp only [hrecord] at hall ⊢
      exact hall

private theorem label_behaves (hg : g.Closed) (hid : g.Has id) :
    Behaves (label g id) [] [] fun _ => True := by
  refine .get_bind fun s => ?_
  have hdescribe : Behaves (liftFault (g.describe id)) [] [] fun _ => True :=
    .lift (hg.describe_ok hid)
  split
  · refine .bind_silent (.lift (TypeGraph.get_ok hid)) fun node _ => ?_
    split
    · exact .pure trivial
    · exact hdescribe
  · exact hdescribe

private theorem report_behaves (issue : Issue) :
    Behaves (report issue) [] [issue.kind] fun _ => True := by
  intro s
  exact .modify ⟨trivial, .refl _, rfl, by simp, .refl _⟩

private theorem scalarSample_behaves (path name : String) :
    Behaves (scalarSample path name) []
      (if (Sample.scalar? name).isNone then [.unmappedScalar] else [])
      fun sample => sample.outline = .leaf (Sample.scalar name) := by
  unfold scalarSample
  split
  · exact .map (report_behaves (.unmappedScalar path name)) fun _ _ => rfl
  · exact .pure rfl

theorem firstLiteral_ok (variants : List TypeId) (hv : ∀ v ∈ variants, g.Has v) :
    Succeeds (firstLiteral? g variants) fun _ => True := by
  induction variants with
  | nil => exact .pure trivial
  | cons v vs ih =>
    refine .bind (TypeGraph.get_ok (hv v List.mem_cons_self)) fun node _ => ?_
    split
    · exact .pure trivial
    · exact ih fun v' hv' => hv v' (List.mem_cons_of_mem v hv')

private theorem unionSample_behaves [Spelling] (hg : g.Closed) (variants : List TypeId)
    (hv : ∀ v ∈ variants, g.Has v) {records : List TypeId} {literal : Option Json}
    (hrecords : ∀ hint place, Behaves (discoverVariants g hint place variants) records []
      fun _ => True)
    (hliteral : firstLiteral? g variants = .ok literal) (hint path : String) :
    Behaves (unionSample g hint path variants) records
      (if literal.isNone then [.unrepresentableUnion] else [])
      fun sample => sample.outline = .leaf ((literal.map Json.print).getD "null") := by
  unfold unionSample
  have hlabels : Behaves (variants.mapM (label g)) [] [] fun _ => True :=
    .mapM_silent variants fun v hmem => label_behaves hg (hv v hmem)
  have hrest : Behaves (do
      let labels ← variants.mapM (label g)
      let literal ← liftFault (firstLiteral? g variants)
      if literal.isNone then report (.unrepresentableUnion path (Sample.alternatives labels))
      return Sample.leaf (.union labels literal)) []
      (if literal.isNone then [.unrepresentableUnion] else [])
      fun sample => sample.outline = .leaf ((literal.map Json.print).getD "null") := by
    refine .bind_silent hlabels fun labels _ => ?_
    refine .bind_silent (.lift ⟨literal, hliteral, rfl⟩) fun _ h => ?_
    subst h
    cases literal with
    | none => exact .map (report_behaves _) fun _ _ => rfl
    | some value => exact .pure rfl
  have hall := (hrecords hint 1).bind fun _ _ => hrest
  simpa only [List.append_nil, List.nil_append] using hall

private theorem arraySample_behaves [Spelling]
    (hg : g.Closed) {element : TypeId} (he : g.Has element) :
    Succeeds (recordsAmong g [element]) fun records => ∀ hint,
      Behaves (arraySample g hint element) records []
        fun sample => sample.outline = .leaf "[]" := by
  refine .bind (TypeGraph.get_ok he) fun node hnode => .pure fun hint => ?_
  have hfirst := discoverIfRecord_behaves hnode (hint ++ "Item")
  have hlabel : Behaves (do return Sample.leaf (.array (← label g element))) [] []
      fun sample => sample.outline = .leaf "[]" :=
    .map (label_behaves hg he) fun _ _ => rfl
  have hall := hfirst.bind fun _ _ => hlabel
  rw [List.append_nil] at hall
  exact hall

private theorem entries_behaves [Spelling] {room : Nat} {above : List TypeId} (fields : List Field)
    (h : ∀ field ∈ fields, Succeeds (surveyBelow g room above field.type) fun survey =>
      ∀ hint path, Behaves (sampleBelow g room above hint path field.type) survey.announced
        survey.issues fun sample => sample.outline = survey.outline) :
    Succeeds (fields.mapM fun field => do
      return (Naming.fieldName field.name, ← surveyBelow g room above field.type))
      fun entries => ∀ name : String, Behaves (fields.mapM fun field => do
        let sample ← sampleBelow g room above (name ++ Naming.typeName field.name)
          (name ++ "." ++ field.name) field.type
        return (Naming.fieldName field.name, sample))
        (entries.flatMap fun entry => entry.2.announced)
        (entries.flatMap fun entry => entry.2.issues)
        (List.Forall₂ (fun entry surveyed =>
          entry.1 = surveyed.1 ∧ entry.2.outline = surveyed.2.outline) · entries) := by
  refine Behaves.mapM fields fun field hfield => ?_
  refine .bind (h field hfield) fun survey hsurvey => ?_
  exact .pure fun name => .map (hsurvey _ _) fun _ houtline => ⟨rfl, houtline⟩

/-- The sample below a record, array or union does not depend on what has been named, queued and
reported before, except for its notes. -/
theorem sampleBelow_behaves [Spelling]
    (hg : g.Closed) (room : Nat) (above : List TypeId) (hid : g.Has id) :
    Succeeds (surveyBelow g room above id) fun survey => ∀ hint path,
      Behaves (sampleBelow g room above hint path id) survey.announced survey.issues
        fun sample => sample.outline = survey.outline := by
  induction room using Nat.strong_induction_on generalizing above id with
  | _ room ih =>
    unfold surveyBelow sampleBelow
    refine .bind (TypeGraph.get_ok hid) fun node hnode => ?_
    have href := fun r => hg.has_reference hnode (r := r)
    have hget : Behaves (liftFault (g.get id)) [] [] (· = node) := .lift ⟨node, hnode, rfl⟩
    cases node with
    | scalar name =>
      refine .pure fun hint path => .bind_silent hget fun _ h => ?_
      subst h
      exact scalarSample_behaves path name
    | literal value =>
      refine .pure fun hint path => .bind_silent hget fun _ h => ?_
      subst h
      exact .pure rfl
    | unknown kind =>
      refine .pure fun hint path => .bind_silent hget fun _ h => ?_
      subst h
      exact .pure rfl
    | union name variants =>
      refine .bind (discoverVariants_behaves variants href) fun records hrecords => ?_
      refine .bind (firstLiteral_ok variants href).eqn fun literal hliteral => ?_
      have hunion := unionSample_behaves hg variants href hrecords hliteral.1
      exact .pure fun hint path => .bind_silent hget fun _ h => h ▸ hunion hint path
    | array element =>
      have helement : g.Has element := href element (by simp [TypeNode.references])
      exact (arraySample_behaves hg helement).bind fun records hrecords =>
        .pure fun hint path => .bind_silent hget fun _ h => h ▸ hrecords hint
    | record name base fields =>
      have hdiscover := discover_behaves (g := g) hid
      by_cases habove : id ∈ above
      · simp only [habove, if_true]
        refine .pure fun hint path => .bind_silent hget fun _ h => ?_
        subst h
        exact .map (hdiscover hint) fun _ _ => rfl
      simp only [habove, if_false]
      cases room with
      | zero =>
        refine .pure fun hint path => .bind_silent hget fun _ h => ?_
        subst h
        exact .map (hdiscover hint) fun _ _ => rfl
      | succ room =>
        -- The types of the fields are sampled with less room, below the record as an open one.
        refine .bind (hg.allFields_ok hid).eqn fun fields hfound => ?_
        obtain ⟨hfields, htypes⟩ := hfound
        have hentries := entries_behaves fields fun field hfield =>
          ih room (Nat.lt_succ_self room) (id :: above) (htypes field hfield)
        refine .bind hentries fun entries hentries => .pure fun hint path => ?_
        refine .bind_silent hget fun _ h => ?_
        subst h
        refine (hdiscover hint).bind fun name _ => ?_
        refine .bind_silent (.lift ⟨fields, hfields, rfl⟩) fun _ h => ?_
        subst h
        exact .map (hentries name) fun _ h => congrArg Outline.block (Sample.outlineEntries_eq h)

end Synthesis

end RequestDocs
