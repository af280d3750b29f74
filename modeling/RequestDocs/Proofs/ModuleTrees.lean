import RequestDocs.Generation.Layout
import RequestDocs.Proofs.ModuleSteps
import RequestDocs.Proofs.Steps
/-!
# Module trees in range

Every module of a laid out tree declares later modules only and imports modules of the tree, so that
rendering looks up no other module and comes to an end. A module with content is a file at one of the
addresses that the layout gives.
-/

namespace RequestDocs

def ModuleId.Within (size : Nat) (id : ModuleId) : Prop := ∃ i < size, id = .node i

/-- Where the file of a module at a place is. -/
def TreePath.address (path : TreePath) (fileName : String) : String :=
  FilePath.push (FilePath.ofComponents path.directory.segments) fileName

/-- The module at a place declares later modules and imports modules, all of the first `size`. If it
has content, it is a file at one of the addresses. -/
structure Module.Within (addresses : String → Prop) (size place : Nat) (m : Module) : Prop where
  children : ∀ id ∈ m.children, ∃ i < size, place < i ∧ id = .node i
  imports : ∀ item ∈ m.imports, ∀ id, item.source = .module id → id.Within size
  address : m.hasContent → addresses m.filePath

theorem ModuleId.Within.mono {size size' : Nat} {id : ModuleId} (h : id.Within size)
    (hle : size ≤ size') : id.Within size' := by
  obtain ⟨i, hi, rfl⟩ := h
  exact ⟨i, by omega, rfl⟩

theorem ModuleId.Within.ne_detached {size : Nat} {id : ModuleId} (h : id.Within size) :
    id ≠ .detached := by
  obtain ⟨i, _, rfl⟩ := h
  exact nofun

variable {addresses : String → Prop}

namespace Module.Within

variable {size place : Nat} {m : Module}

theorem mono {size' : Nat} (h : m.Within addresses size place) (hle : size ≤ size') :
    m.Within addresses size' place where
  children id hid := by
    obtain ⟨i, hi, hlt, rfl⟩ := h.children id hid
    exact ⟨i, by omega, hlt, rfl⟩
  imports item hitem id hid := (h.imports item hitem id hid).mono hle
  address := h.address

theorem fresh (name : String) (path : TreePath) (group extension : Option String) :
    (Module.fresh name path group extension).Within addresses size place where
  children _ hid := by simp [Module.fresh, Module.children] at hid
  imports _ hitem := by simp [Module.fresh] at hitem
  address hcontent := by simp [Module.fresh, Module.hasContent] at hcontent

theorem declareModule (h : m.Within addresses size place) {i : Nat} (hi : i < size) (hlt : place < i) :
    { m with declarations := m.declarations ++ [Declaration.module (.node i)] }.Within addresses size
      place where
  children id hid := by
    simp only [Module.children, List.filterMap_append, List.mem_append] at hid
    rcases hid with hid | hid
    · exact h.children id hid
    · simp only [List.filterMap_cons, List.filterMap_nil, List.mem_singleton] at hid
      exact ⟨i, hi, hlt, hid⟩
  imports := h.imports
  address hcontent := h.address (by simpa [Module.hasContent, Module.isNested] using hcontent)

theorem declare (h : m.Within addresses size place) (haddress : addresses m.filePath)
    {d : Declaration} (hd : Module.isNested d = false) :
    { m with declarations := m.declarations ++ [d] }.Within addresses size place where
  children id hid := by
    simp only [Module.children, List.filterMap_append, List.mem_append] at hid
    rcases hid with hid | hid
    · exact h.children id hid
    · cases d with
      | line | block => simp at hid
      | module => simp [Module.isNested] at hd
  imports := h.imports
  address _ := haddress

theorem addImport (h : m.Within addresses size place) (haddress : addresses m.filePath)
    {item : Import} (hitem : ∀ id, item.source = .module id → id.Within size) :
    { m with imports := m.imports ++ [item] }.Within addresses size place where
  children := h.children
  imports item' hitem' id hid := by
    rcases List.mem_append.1 hitem' with hitem' | hitem'
    · exact h.imports item' hitem' id hid
    · rw [List.mem_singleton.1 hitem'] at hid
      exact hitem id hid
  address _ := haddress

end Module.Within

namespace ModuleTree

def Has (t : ModuleTree) (id : ModuleId) : Prop := id.Within t.modules.size

def At (t : ModuleTree) (id : ModuleId) (path : TreePath) (fileName : String) : Prop :=
  ∃ (i : Nat) (m : Module), id = .node i ∧ t.modules[i]? = some m ∧ m.path = path ∧
    m.fileName = fileName

/-- A tree with a root, whose modules declare later ones and import modules of the tree. Those with
content are files at one of the addresses. -/
structure InRange (addresses : String → Prop) (t : ModuleTree) : Prop where
  root : t.At root .root ""
  modules : ∀ (i : Nat) (m : Module), t.modules[i]? = some m →
    m.Within addresses t.modules.size i

variable {t t' : ModuleTree} {id : ModuleId} {path : TreePath} {fileName : String}

theorem empty_inRange : empty.InRange addresses where
  root := ⟨0, Module.root, rfl, rfl, rfl, rfl⟩
  modules i m h := by
    obtain rfl : m = Module.root := by
      simp only [empty, List.getElem?_toArray] at h
      exact List.mem_singleton.1 (List.mem_of_getElem? h)
    exact .fresh _ _ _ _

theorem At.has (h : t.At id path fileName) : t.Has id := by
  obtain ⟨i, m, rfl, hm, -⟩ := h
  exact ⟨i, (Array.getElem?_eq_some_iff.1 hm).1, rfl⟩

theorem get_ok (h : t.Has id) :
    ∃ i m, id = .node i ∧ t.modules[i]? = some m ∧ t.get id = .ok m := by
  obtain ⟨i, hi, rfl⟩ := h
  exact ⟨i, t.modules[i], rfl, by simp [hi], by simp [get, hi]⟩

theorem get_succeeds (h : t.Has id) : Succeeds (t.get id) fun _ => True := by
  obtain ⟨_, m, _, _, hm⟩ := get_ok h
  exact ⟨m, hm, trivial⟩

theorem At.get_ok (h : t.At id path fileName) : Succeeds (t.get id) fun m => m.path = path := by
  obtain ⟨i, m, rfl, hm, hpath, -⟩ := h
  exact ⟨m, by simp [get, hm], hpath⟩

theorem InRange.get_within (h : t.InRange addresses) {i : Nat} (hi : i < t.modules.size) :
    Succeeds (t.get (.node i)) fun m => m.Within addresses t.modules.size i := by
  obtain ⟨j, m, heq, hm, hget⟩ := ModuleTree.get_ok (t := t) ⟨i, hi, rfl⟩
  cases heq
  exact ⟨m, hget, h.modules i m hm⟩

private theorem At.set {i : Nat} {m n : Module} (hm : t.modules[i]? = some m) (hpath : n.path = m.path)
    (hfile : n.fileName = m.fileName) (h : t.At id path fileName) : (t.set i n).At id path fileName := by
  obtain ⟨j, m', rfl, hm', rfl, rfl⟩ := h
  by_cases hij : j = i
  · subst hij
    cases hm.symm.trans hm'
    exact ⟨j, n, rfl, getElem?_set_self (lt_size hm), hpath, hfile⟩
  · exact ⟨j, m', rfl, by rwa [getElem?_set_ne hij], rfl, rfl⟩

/-- What a step keeps: the tree is in range, has lost no module, and each has kept its place. -/
structure Extends (addresses : String → Prop) (t t' : ModuleTree) : Prop where
  inRange : t'.InRange addresses
  size : t.modules.size ≤ t'.modules.size
  places : ∀ id path fileName, t.At id path fileName → t'.At id path fileName

theorem Extends.refl (h : t.InRange addresses) : Extends addresses t t :=
  ⟨h, Nat.le_refl _, fun _ _ _ hid => hid⟩

theorem Extends.trans {t'' : ModuleTree} (h : Extends addresses t t') (h' : Extends addresses t' t'') :
    Extends addresses t t'' where
  inRange := h'.inRange
  size := Nat.le_trans h.size h'.size
  places id path fileName hid := h'.places id path fileName (h.places id path fileName hid)

private theorem update_extends (h : t.InRange addresses) (hid : t.At id path fileName)
    (action : ModuleAction) {change : Module → Module}
    (hkeeps : ∀ m, (change m).path = m.path ∧ (change m).fileName = m.fileName)
    (hchange : ∀ i (m : Module), m.filePath = path.address fileName →
      m.Within addresses t.modules.size i → (change m).Within addresses t.modules.size i) :
    Succeeds (t.update action change id) (Extends addresses t) := by
  obtain ⟨i, m, rfl, hm, rfl, rfl⟩ := hid
  have hplaces : ∀ id path fileName, t.At id path fileName → (t.set i (change m)).At id path fileName :=
    fun _ _ _ hid => hid.set hm (hkeeps m).1 (hkeeps m).2
  refine ⟨_, update_node hm action change, ⟨hplaces _ _ _ h.root, fun j m' hm' => ?_⟩, by simp, hplaces⟩
  rw [size_set]
  rcases set_cases hm' with ⟨rfl, rfl⟩ | hm'
  · exact hchange j m rfl (h.modules j m hm)
  · exact h.modules j m' hm'

theorem declare_ok (h : t.InRange addresses) (hid : t.At id path fileName)
    (haddress : addresses (path.address fileName)) {d : Declaration}
    (hd : Module.isNested d = false) : Succeeds (t.declare id d) (Extends addresses t) := by
  refine update_extends h hid .declare (fun _ => ⟨rfl, rfl⟩) fun i m hpath hm => ?_
  exact hm.declare (hpath ▸ haddress) hd

theorem addImport_ok (h : t.InRange addresses) (hid : t.At id path fileName)
    (haddress : addresses (path.address fileName)) {item : Import}
    (hitem : ∀ target, item.source = .module target → t.Has target) :
    Succeeds (t.addImport id item) (Extends addresses t) := by
  unfold addImport
  have hne : item.source ≠ .module .detached :=
    fun heq => (hitem .detached heq).ne_detached rfl
  rw [if_neg hne]
  refine update_extends h hid .importInto (fun _ => ⟨rfl, rfl⟩) fun i m hpath hm => ?_
  exact hm.addImport (hpath ▸ haddress) hitem

theorem attach_ok (h : t.InRange addresses) (name : String) {parent : ModuleId}
    (hparent : t.At parent path fileName) (group extension : Option String) :
    Succeeds (t.attach name parent group extension) fun r => Extends addresses t r.2 ∧
      r.2.At r.1 (path.enter [name]) (Module.fresh name path group extension).fileName := by
  obtain ⟨i, m, rfl, hm, rfl, rfl⟩ := hparent
  refine ⟨_, attach_node hm name group extension, ?_, ?_⟩
  · have hplaces : ∀ id path fileName, t.At id path fileName →
        (t.attached i m (.fresh name (m.path.enter [name]) group extension)).At id path fileName := by
      intro _ _ _ hid
      obtain ⟨j, m', rfl, hm', rfl, rfl⟩ := hid.set (n := m.declaring t.modules.size) hm rfl rfl
      exact ⟨j, m', rfl, by rwa [getElem?_attached_old (by simpa using lt_size hm')], rfl, rfl⟩
    refine ⟨⟨hplaces _ _ _ h.root, fun j m' hm' => ?_⟩, by simp, hplaces⟩
    rw [size_attached]
    rcases attached_cases hm' with ⟨rfl, rfl⟩ | ⟨rfl, rfl⟩ | hm'
    · exact .fresh _ _ _ _
    · exact ((h.modules j m hm).mono (Nat.le_succ _)).declareModule (Nat.lt_succ_self _) (lt_size hm)
    · exact (h.modules j m' hm').mono (Nat.le_succ _)
  · exact ⟨_, _, rfl, getElem?_attached_new, rfl, rfl⟩

theorem createFile_ok (h : t.InRange addresses) (name extension : String) {parent : ModuleId}
    (hparent : t.At parent path fileName) : Succeeds (t.createFile name extension parent)
      fun r => Extends addresses t r.2 ∧ r.2.At r.1 (path.enter [name]) (name ++ "." ++ extension) :=
  .bind hparent.get_ok fun _ _ => attach_ok h name hparent _ _

private theorem relativePath_ok {source target : ModuleId} (hs : t.Has source)
    (ht : t.Has target) : Succeeds (t.relativePath source target) fun _ => True := by
  have hne : (source = .detached || target = .detached) = false := by
    simp [hs.ne_detached, ht.ne_detached]
  simp only [relativePath, hne]
  refine .bind (get_succeeds hs) fun _ _ => ?_
  exact .bind (get_succeeds ht) fun _ _ => .pure trivial

private theorem importSpecifier_ok {source target : ModuleId} (hs : t.Has source)
    (ht : t.Has target) : Succeeds (t.importSpecifier source target) fun _ => True := by
  refine .bind (relativePath_ok hs ht) fun _ _ => ?_
  exact .bind (get_succeeds ht) fun _ _ => .pure trivial

private theorem importLine_ok {id : ModuleId} (hid : t.Has id) {item : Import}
    (hitem : ∀ target, item.source = .module target → t.Has target) :
    Succeeds (t.importLine id item) fun _ => True := by
  unfold importLine
  split
  · next target heq =>
    exact .bind (importSpecifier_ok hid (hitem target heq)) fun _ _ => .pure trivial
  · exact .pure trivial

theorem contents_ok {id : ModuleId} (hid : t.Has id) {m : Module} {place : Nat}
    (hm : m.Within addresses t.modules.size place) : Succeeds (t.contents id m) fun _ => True := by
  refine .bind (.mapM (P := fun _ => True) m.imports fun item hitem => ?_)
    fun _ _ => .pure trivial
  exact importLine_ok hid (hm.imports item hitem)

private theorem ownFile_ok {id : ModuleId} (hid : t.Has id) {m : Module} {place : Nat}
    (hm : m.Within addresses t.modules.size place) :
    Succeeds (t.ownFile id m) fun files => ∀ file ∈ files, addresses file.path := by
  unfold ownFile
  split
  · exact .pure (by simp)
  · next hfile =>
    have hcontent : m.hasContent = true := by
      simp only [Bool.or_eq_true, decide_eq_true_eq, Bool.not_eq_true', not_or, Bool.not_eq_false] at hfile
      exact hfile.2
    exact .bind (contents_ok hid hm) fun _ _ => .pure (by simpa using hm.address hcontent)

private theorem renderBelow_ok (h : t.InRange addresses) (fuel i : Nat) (hi : i < t.modules.size)
    (hfuel : t.modules.size < i + fuel) :
    Succeeds (t.renderBelow fuel (.node i)) fun files => ∀ file ∈ files, addresses file.path := by
  induction fuel generalizing i with
  | zero => omega
  | succ fuel ih =>
    have hid : t.Has (.node i) := ⟨i, hi, rfl⟩
    refine .bind (h.get_within hi) fun m hin => ?_
    refine .bind (ownFile_ok hid hin) fun file hfile => ?_
    refine .bind (.mapM (P := fun files => ∀ file ∈ files, addresses file.path) m.children
      fun id hchild => ?_) fun below hbelow => .pure ?_
    · -- Children come later, so fewer modules are ahead of them.
      obtain ⟨k, hk, hik, rfl⟩ := hin.children id hchild
      exact ih k hk (by omega)
    · intro f hf
      rcases List.mem_append.1 hf with hf | hf
      · exact hfile f hf
      · obtain ⟨files, hfiles, hf⟩ := List.mem_flatten.1 hf
        exact hbelow files hfiles f hf

theorem render_ok (h : t.InRange addresses) :
    Succeeds t.render fun files => ∀ file ∈ files, addresses file.path := by
  obtain ⟨i, hi, heq⟩ := h.root.has
  obtain rfl : i = 0 := by cases heq; rfl
  exact renderBelow_ok h _ 0 hi (by omega)

end ModuleTree

end RequestDocs
