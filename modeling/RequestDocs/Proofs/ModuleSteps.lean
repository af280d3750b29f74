import RequestDocs.ModuleTree.Basic
/-!
# Steps of module trees

What each operation does to a tree: the places it changes, the place it adds, and when it is refused.
-/

namespace RequestDocs

def Module.declaring (m : Module) (index : Nat) : Module :=
  { m with declarations := m.declarations ++ [.module (.node index)] }

def Module.declaringAll (m : Module) (first count : Nat) : Module :=
  { m with
    declarations := m.declarations ++ (List.range' first count).map fun i => .module (.node i) }

namespace Module

variable (m : Module) (first count : Nat)

@[simp] theorem declaringAll_zero : m.declaringAll first 0 = m := by simp [declaringAll]

@[simp] theorem path_declaringAll : (m.declaringAll first count).path = m.path := rfl

@[simp] theorem group_declaringAll : (m.declaringAll first count).group = m.group := rfl

theorem declaringAll_one : m.declaringAll first 1 = m.declaring first := by
  simp [declaring, declaringAll]

theorem declaringAll_declaringAll (later : Nat) :
    (m.declaringAll first count).declaringAll (first + count) later =
      m.declaringAll first (count + later) := by
  simp [declaringAll, ← List.range'_append_1]

end Module

namespace ModuleTree

def set (t : ModuleTree) (i : Nat) (m : Module) : ModuleTree := ⟨t.modules.setIfInBounds i m⟩

/-- The tree with one more module, which the module in a place declares. -/
def attached (t : ModuleTree) (i : Nat) (m child : Module) : ModuleTree :=
  ⟨(t.set i (m.declaring t.modules.size)).modules.push child⟩

variable {t t' : ModuleTree} {id parent : ModuleId} {i j : Nat} {m n child : Module}

theorem lt_size (hm : t.modules[i]? = some m) : i < t.modules.size :=
  (Array.getElem?_eq_some_iff.1 hm).1

theorem empty_cases (h : empty.modules[i]? = some m) : i = 0 ∧ m = Module.root := by
  have hi : i < 1 := lt_size h
  obtain rfl : i = 0 := by omega
  exact ⟨rfl, (Option.some.inj h).symm⟩

@[simp] theorem size_set : (t.set i m).modules.size = t.modules.size := by simp [set]

@[simp] theorem size_attached : (t.attached i m child).modules.size = t.modules.size + 1 := by
  simp [attached]

theorem getElem?_set_self (hi : i < t.modules.size) : (t.set i n).modules[i]? = some n := by
  simp [set, hi]

theorem getElem?_set_ne (h : j ≠ i) : (t.set i n).modules[j]? = t.modules[j]? := by
  simp [set, h.symm]

theorem getElem?_attached_new : (t.attached i m child).modules[t.modules.size]? = some child := by
  rw [attached, Array.getElem?_push, if_pos size_set.symm]

theorem getElem?_attached_old (hj : j < t.modules.size) :
    (t.attached i m child).modules[j]? = (t.set i (m.declaring t.modules.size)).modules[j]? := by
  simp [attached, Array.getElem?_push, Nat.ne_of_lt hj]

theorem set_cases (h : (t.set i n).modules[j]? = some m) :
    (j = i ∧ m = n) ∨ t.modules[j]? = some m := by
  by_cases hj : j = i
  · subst hj
    have hlt : j < t.modules.size := by simpa using lt_size h
    rw [getElem?_set_self hlt] at h
    exact .inl ⟨rfl, (Option.some.inj h).symm⟩
  · exact .inr (by rwa [getElem?_set_ne hj] at h)

theorem attached_cases (h : (t.attached i n child).modules[j]? = some m) :
    (j = t.modules.size ∧ m = child) ∨ (j = i ∧ m = n.declaring t.modules.size) ∨
      t.modules[j]? = some m := by
  have hlt : j < t.modules.size + 1 := by simpa using lt_size h
  by_cases hj : j = t.modules.size
  · subst hj
    rw [getElem?_attached_new] at h
    exact .inl ⟨rfl, (Option.some.inj h).symm⟩
  · rw [getElem?_attached_old (by omega)] at h
    exact .inr (set_cases h)

theorem get_node (hm : t.modules[i]? = some m) : t.get (.node i) = .ok m := by
  simp [get, hm]

theorem update_node (hm : t.modules[i]? = some m) (action : ModuleAction) (change : Module → Module) :
    t.update action change (.node i) = .ok (t.set i (change m)) := by
  simp [update, hm, set]

theorem update_cases {action : ModuleAction} {change : Module → Module}
    (h : t.update action change id = .ok t') :
    ∃ i m, id = .node i ∧ t.modules[i]? = some m ∧ t' = t.set i (change m) := by
  cases id with
  | detached => cases h
  | node i =>
    cases hm : t.modules[i]? with
    | none => simp [update, hm] at h
    | some m =>
      rw [update_node hm] at h
      cases h
      exact ⟨i, m, rfl, hm, rfl⟩

theorem attach_node (hm : t.modules[i]? = some m) (name : String) (group extension : Option String) :
    t.attach name (.node i) group extension = .ok (.node t.modules.size,
      t.attached i m (.fresh name (m.path.enter [name]) group extension)) := by
  simp only [attach, get_node hm]
  change (t.update _ _ (.node i) >>= _) = _
  rw [update_node hm]
  rfl

theorem createFile_node (hm : t.modules[i]? = some m) (name extension : String) :
    t.createFile name extension (.node i) = .ok (.node t.modules.size,
      t.attached i m (.fresh name (m.path.enter [name]) m.group (some extension))) := by
  simp only [createFile, get_node hm]
  exact attach_node hm name m.group (some extension)

theorem createModule_node (hm : t.modules[i]? = some m) (name : String) (group : Option String) :
    t.createModule name (.node i) group = .ok (.node t.modules.size,
      t.attached i m (.fresh name (m.path.enter [name]) group none)) :=
  attach_node hm name group none

theorem attach_cases {name : String} {group extension : Option String}
    (h : t.attach name parent group extension = .ok (id, t')) :
    ∃ i m, parent = .node i ∧ t.modules[i]? = some m ∧ id = .node t.modules.size ∧
      t' = t.attached i m (.fresh name (m.path.enter [name]) group extension) := by
  cases parent with
  | detached => cases h
  | node i =>
    cases hm : t.modules[i]? with
    | none =>
      simp only [attach, get, hm] at h
      cases h
    | some m =>
      rw [attach_node hm] at h
      cases h
      exact ⟨i, m, rfl, hm, rfl, rfl⟩

theorem createFile_cases {name extension : String}
    (h : t.createFile name extension parent = .ok (id, t')) :
    ∃ group, t.attach name parent group (some extension) = .ok (id, t') := by
  unfold createFile at h
  cases hm : t.get parent with
  | error => rw [hm] at h; cases h
  | ok m => rw [hm] at h; exact ⟨m.group, h⟩

theorem declare_node (hm : t.modules[i]? = some m) (d : Declaration) :
    t.declare (.node i) d = .ok (t.set i { m with declarations := m.declarations ++ [d] }) :=
  update_node hm .declare _

theorem addImport_node (hm : t.modules[i]? = some m) {item : Import}
    (hitem : item.source ≠ .module .detached) :
    t.addImport (.node i) item = .ok (t.set i { m with imports := m.imports ++ [item] }) := by
  rw [addImport, if_neg hitem]
  exact update_node hm .importInto _

def append (t : ModuleTree) (ms : List Module) : ModuleTree := ⟨t.modules ++ ms.toArray⟩

variable {ms xs ys : List Module} {x y : Module}

@[simp] theorem size_append : (t.append ms).modules.size = t.modules.size + ms.length := by
  simp [append]

@[simp] theorem append_nil : t.append [] = t := by simp [append]

@[simp] theorem append_append : (t.append xs).append ys = t.append (xs ++ ys) := by simp [append]

@[simp] theorem set_set : (t.set i m).set i n = t.set i n := by simp [set]

theorem set_self (hm : t.modules[i]? = some m) : t.set i m = t := by
  obtain ⟨hi, rfl⟩ := Array.getElem?_eq_some_iff.1 hm
  simp [set, Array.setIfInBounds, hi]

theorem getElem?_append_left (ms : List Module) (hm : t.modules[i]? = some m) :
    (t.append ms).modules[i]? = some m := by
  rw [← hm]
  exact Array.getElem?_append_left (lt_size hm)

theorem getElem?_append_right (k : Nat) :
    (t.append ms).modules[t.modules.size + k]? = ms[k]? := by
  simp [append, Array.getElem?_append_right (Nat.le_add_right _ k)]

theorem set_append_left (hi : i < t.modules.size) : (t.append ms).set i m = (t.set i m).append ms := by
  simp [append, set, hi]

theorem set_append_right :
    (t.append (xs ++ x :: ys)).set (t.modules.size + xs.length) y = t.append (xs ++ y :: ys) := by
  simp [append, set]

theorem getElem?_append_first : (t.append (x :: xs)).modules[t.modules.size]? = some x :=
  getElem?_append_right 0

theorem set_append_first : (t.append (x :: xs)).set t.modules.size y = t.append (y :: xs) :=
  @set_append_right t [] xs x y

theorem attached_eq : t.attached i m child = (t.set i (m.declaring t.modules.size)).append [child] := by
  simp [attached, append]

theorem set_attached_new :
    (t.attached i m child).set t.modules.size n = (t.set i (m.declaring t.modules.size)).append [n] := by
  have hset := @set_append_first (t.set i (m.declaring t.modules.size)) [] child n
  rwa [size_set, ← attached_eq] at hset

/-- The modules stand in the tree one after another, from a place on. -/
def Carries (t : ModuleTree) (i : Nat) (ms : List Module) : Prop :=
  ∀ k m, ms[k]? = some m → t.modules[i + k]? = some m

theorem carries_cons : t.Carries i (m :: ms) ↔ t.modules[i]? = some m ∧ t.Carries (i + 1) ms := by
  constructor
  · intro h
    refine ⟨h 0 m rfl, fun k n hn => ?_⟩
    rw [Nat.add_right_comm]
    exact h (k + 1) n hn
  · intro ⟨hm, h⟩ k n hn
    cases k with
    | zero => exact hm.trans hn
    | succ k =>
      have hnext := h k n hn
      rwa [Nat.add_right_comm] at hnext

theorem carries_append :
    t.Carries i (xs ++ ys) ↔ t.Carries i xs ∧ t.Carries (i + xs.length) ys := by
  induction xs generalizing i with
  | nil => simp [Carries]
  | cons x xs ih =>
    have hplace : i + 1 + xs.length = i + (xs.length + 1) := by omega
    rw [List.cons_append, carries_cons, carries_cons, ih, hplace, and_assoc, List.length_cons]

theorem carries_appended (t : ModuleTree) (ms : List Module) : (t.append ms).Carries t.modules.size ms := by
  intro k m hm
  rw [getElem?_append_right, hm]

theorem Carries.append (h : t.Carries i ms) (ms' : List Module) : (t.append ms').Carries i ms :=
  fun k m hm => getElem?_append_left ms' (h k m hm)

theorem Carries.set (h : t.Carries i ms) (hj : j < i) (n : Module) : (t.set j n).Carries i ms := by
  intro k m hm
  rw [getElem?_set_ne (by omega)]
  exact h k m hm

end ModuleTree

end RequestDocs
