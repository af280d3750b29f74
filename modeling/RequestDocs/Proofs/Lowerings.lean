import RequestDocs.Proofs.ClosedGraphs
import RequestDocs.Proofs.Shapes
/-!
# What lowering does

Lowering as a relation between states, one rule a shape, without bounds and faults; and what holds
along it: ids stay in range, entered components keep their ids, and of the nodes that were there
only the one at the slot changes.
-/

namespace RequestDocs.OpenApi

namespace LoweringState

def Has (s : LoweringState) (id : TypeId) : Prop := s.graph.Has id

def next (s : LoweringState) : TypeId := ⟨s.graph.size⟩

def push (s : LoweringState) (node : TypeNode) : LoweringState :=
  { s with graph := (s.graph.add node).2 }

def put (s : LoweringState) (id : TypeId) (node : TypeNode) : LoweringState :=
  { s with graph := ⟨s.graph.nodes.setIfInBounds id.index node⟩ }

def place (s : LoweringState) (node : TypeNode) : (slot : Option TypeId) → TypeId × LoweringState
  | some slot => (slot, s.put slot node)
  | none => (s.next, s.push node)

def enter (s : LoweringState) (name path : String) : LoweringState where
  graph := (s.graph.add .pending).2
  components := (name, s.next) :: s.components
  pointers := (s.next, path) :: s.pointers

variable {s : LoweringState} {id : TypeId} {node : TypeNode}

@[simp] theorem push_components : (s.push node).components = s.components := rfl

@[simp] theorem push_pointers : (s.push node).pointers = s.pointers := rfl

@[simp] theorem put_components : (s.put id node).components = s.components := rfl

@[simp] theorem put_pointers : (s.put id node).pointers = s.pointers := rfl

@[simp] theorem place_components {slot : Option TypeId} :
    (s.place node slot).2.components = s.components := by cases slot <;> rfl

@[simp] theorem place_pointers {slot : Option TypeId} :
    (s.place node slot).2.pointers = s.pointers := by cases slot <;> rfl

@[simp] theorem push_size : (s.push node).graph.size = s.graph.size + 1 := by
  simp [push, TypeGraph.add, TypeGraph.size]

@[simp] theorem put_size : (s.put id node).graph.size = s.graph.size := by
  simp [put, TypeGraph.size]

theorem get_push_next : (s.push node).graph.get s.next = .ok node := s.graph.get_add_self node

theorem get_push (h : s.Has id) : (s.push node).graph.get id = s.graph.get id :=
  s.graph.get_add_of_lt node h

theorem get_put_self (h : s.Has id) : (s.put id node).graph.get id = .ok node := by
  have hi : id.index < s.graph.nodes.size := h
  simp [put, TypeGraph.get, hi]

theorem get_put_of_ne {id' : TypeId} (h : id' ≠ id) :
    (s.put id node).graph.get id' = s.graph.get id' := by
  have hne : id.index ≠ id'.index := fun heq => h (by cases id; cases id'; simp_all)
  simp [put, TypeGraph.get, hne]

theorem ne_next_of_has (h : s.Has id) : id ≠ s.next := by
  rintro rfl
  exact Nat.lt_irrefl _ h

theorem lookup_enter_self {name : String} :
    ((name, s.next) :: s.components).lookup name = some s.next := by simp

theorem lookup_enter {name component : String}
    (h : ((component, s.next) :: s.components).lookup name = some id) :
    name = component ∧ id = s.next ∨ name ≠ component ∧ s.components.lookup name = some id := by
  rw [List.lookup_cons] at h
  split at h
  · next heq => exact .inl ⟨beq_iff_eq.1 heq, (Option.some.inj h).symm⟩
  · next hne => exact .inr ⟨by simpa using hne, h⟩

end LoweringState

/-- What may be lowered: a schema, at a slot under a name or not, schemas one after the other, and
the members that fields are copied from. -/
inductive Task
  | schema (name : Option String) (slot : Option TypeId) (schema : Schema)
  | each (schemas : List Schema)
  | members (schemas : List Schema)

inductive Outcome
  | type (id : TypeId)
  | types (ids : List TypeId)
  | fields (fields : List Field)

def Task.slot? : Task → Option TypeId
  | schema _ slot _ => slot
  | each _ => none
  | members _ => none

theorem noSlot {P : TypeId → Prop} : ∀ id ∈ (none : Option TypeId), P id := nofun

def Outcome.ids : Outcome → List TypeId
  | type id => [id]
  | types ids => ids
  | fields copied => copied.map (·.type)

open LoweringState in
/-- How a task leads from one state to another. -/
inductive Lowers (c : ApiComponents) : Task → LoweringState → Outcome → LoweringState → Prop
  | external {name slot path s} : Reference.localName? path = .ok none →
      Lowers c (.schema name slot (.reference path)) s (.type s.next)
        (s.push (.unknown ("external reference " ++ path)))
  | known {name slot path s component id} : Reference.localName? path = .ok (some component) →
      s.components.lookup component = some id →
      Lowers c (.schema name slot (.reference path)) s (.type id) s
  | unresolved {name slot path s component} : Reference.localName? path = .ok (some component) →
      s.components.lookup component = none → c.resolveSchema (.reference path) = .ok none →
      Lowers c (.schema name slot (.reference path)) s (.type s.next)
        ((s.enter component path).put s.next (.unknown ("unresolved reference " ++ path)))
  | entered {name slot path s component target s'} :
      Reference.localName? path = .ok (some component) →
      s.components.lookup component = none →
      c.resolveSchema (.reference path) = .ok (some target) →
      Lowers c (.schema (some component) (some s.next) target) (s.enter component path)
        (.type s.next) s' →
      Lowers c (.schema name slot (.reference path)) s (.type s.next) s'
  | leaf {name slot schema node s} : schema.shape c = .leaf node →
      Lowers c (.schema name slot schema) s (.type (s.place node slot).1) (s.place node slot).2
  | through {name schema target s id s'} : schema.shape c = .sameAs target →
      Lowers c (.schema none none target) s (.type id) s' →
      Lowers c (.schema name none schema) s (.type id) s'
  | ownSlot {name slot schema target s s'} : schema.shape c = .sameAs target →
      Lowers c (.schema none none target) s (.type slot) s' →
      Lowers c (.schema name (some slot) schema) s (.type slot) s'
  | copy {name slot schema target s id node s'} : schema.shape c = .sameAs target →
      Lowers c (.schema none none target) s (.type id) s' → slot ≠ id →
      s'.graph.get id = .ok node →
      Lowers c (.schema name (some slot) schema) s (.type slot)
        (s'.put slot (Lowering.rename name node))
  | union {name slot schema variants s ids s'} : schema.shape c = .union variants →
      Lowers c (.each variants) s (.types ids) s' →
      Lowers c (.schema name slot schema) s (.type (s'.place (.union name ids) slot).1)
        (s'.place (.union name ids) slot).2
  | array {name slot schema element s id s'} : schema.shape c = .array element →
      Lowers c (.schema none none element) s (.type id) s' →
      Lowers c (.schema name slot schema) s (.type (s'.place (.array id) slot).1)
        (s'.place (.array id) slot).2
  | openArray {name slot schema kind s} : schema.shape c = .openArray kind →
      Lowers c (.schema name slot schema) s
        (.type ((s.push (.unknown kind)).place (.array s.next) slot).1)
        ((s.push (.unknown kind)).place (.array s.next) slot).2
  | reserve {name schema base members properties s s'} :
      schema.shape c = .record base members properties →
      Lowers c (.schema name (some s.next) schema) (s.push .pending) (.type s.next) s' →
      Lowers c (.schema name none schema) s (.type s.next) s'
  | record {name slot schema base members properties s bases s₁ copied s₂ own s₃} :
      schema.shape c = .record base members properties →
      Lowers c (.each base.toList) s (.types bases) s₁ →
      Lowers c (.members members) s₁ (.fields copied) s₂ →
      Lowers c (.each (properties.map (·.2))) s₂ (.types (own.map (·.type))) s₃ →
      own.map (·.name) = properties.map (·.1) →
      Lowers c (.schema name (some slot) schema) s (.type slot)
        (s₃.put slot (.record name bases.head? (copied ++ own)))
  | eachNil {s} : Lowers c (.each []) s (.types []) s
  | eachCons {schema schemas s id s₁ ids s₂} :
      Lowers c (.schema none none schema) s (.type id) s₁ →
      Lowers c (.each schemas) s₁ (.types ids) s₂ →
      Lowers c (.each (schema :: schemas)) s (.types (id :: ids)) s₂
  | membersNil {s} : Lowers c (.members []) s (.fields []) s
  | membersCons {member members s id s₁ copied rest s₂} :
      Lowers c (.schema none none member) s (.type id) s₁ →
      s₁.graph.allFields id = .ok copied →
      Lowers c (.members members) s₁ (.fields rest) s₂ →
      Lowers c (.members (member :: members)) s (.fields (copied ++ rest)) s₂

variable {c : ApiComponents} {t : Task} {o : Outcome} {s s' : LoweringState}

def ApiComponents.ReferenceComesTo (c : ApiComponents) (path : String) (s : LoweringState)
    (o : Outcome) (s' : LoweringState) : Prop :=
  match Reference.localName? path with
  | .error _ => False
  | .ok none => o = .type s.next ∧ s' = s.push (.unknown ("external reference " ++ path))
  | .ok (some component) =>
    match s.components.lookup component with
    | some id => o = .type id ∧ s' = s
    | none =>
      match c.resolveSchema (.reference path) with
      | .error _ => False
      | .ok none => o = .type s.next ∧
        s' = (s.enter component path).put s.next (.unknown ("unresolved reference " ++ path))
      | .ok (some target) => o = .type s.next ∧
        Lowers c (.schema (some component) (some s.next) target) (s.enter component path) o s'

def ApiComponents.ComesTo (c : ApiComponents) (name : Option String) (slot : Option TypeId)
    (schema : Schema) (s : LoweringState) (o : Outcome) (s' : LoweringState) : Shape → Prop
  | .reference path => c.ReferenceComesTo path s o s'
  | .leaf node => o = .type (s.place node slot).1 ∧ s' = (s.place node slot).2
  | .sameAs target => ∃ id s₁, Lowers c (.schema none none target) s (.type id) s₁ ∧
    match slot with
    | none => o = .type id ∧ s' = s₁
    | some slot => o = .type slot ∧ (slot = id ∧ s' = s₁ ∨ slot ≠ id ∧
        ∃ node, s₁.graph.get id = .ok node ∧ s' = s₁.put slot (Lowering.rename name node))
  | .union variants => ∃ ids s₁, Lowers c (.each variants) s (.types ids) s₁ ∧
    o = .type (s₁.place (.union name ids) slot).1 ∧ s' = (s₁.place (.union name ids) slot).2
  | .array element => ∃ id s₁, Lowers c (.schema none none element) s (.type id) s₁ ∧
    o = .type (s₁.place (.array id) slot).1 ∧ s' = (s₁.place (.array id) slot).2
  | .openArray kind =>
    o = .type ((s.push (.unknown kind)).place (.array s.next) slot).1 ∧
      s' = ((s.push (.unknown kind)).place (.array s.next) slot).2
  | .record base members properties =>
    match slot with
    | none => o = .type s.next ∧ Lowers c (.schema name (some s.next) schema) (s.push .pending) o s'
    | some slot => o = .type slot ∧ ∃ bases s₁ copied s₂ own s₃,
      Lowers c (.each base.toList) s (.types bases) s₁ ∧
      Lowers c (.members members) s₁ (.fields copied) s₂ ∧
      Lowers c (.each (properties.map (·.2))) s₂ (.types (own.map (·.type))) s₃ ∧
      own.map (·.name) = properties.map (·.1) ∧
      s' = s₃.put slot (.record name bases.head? (copied ++ own))

namespace Lowers

variable {name : Option String} {slot : Option TypeId} {schema : Schema} {shape : Shape}

theorem comesTo (h : Lowers c (.schema name slot schema) s o s') (hshape : schema.shape c = shape) :
    c.ComesTo name slot schema s o s' shape := by
  subst hshape
  cases h with
  | external hname =>
    change c.ReferenceComesTo _ s _ _
    simp only [ApiComponents.ReferenceComesTo, hname, and_self]
  | known hname hid =>
    change c.ReferenceComesTo _ s _ _
    simp only [ApiComponents.ReferenceComesTo, hname, hid, and_self]
  | unresolved hname hnew hresolve =>
    change c.ReferenceComesTo _ s _ _
    simp only [ApiComponents.ReferenceComesTo, hname, hnew, hresolve, and_self]
  | entered hname hnew hresolve hrun =>
    change c.ReferenceComesTo _ s _ _
    simp only [ApiComponents.ReferenceComesTo, hname, hnew, hresolve, true_and]
    exact hrun
  | leaf hshape | openArray hshape =>
    rw [hshape]
    exact ⟨rfl, rfl⟩
  | through hshape hrun =>
    rw [hshape]
    exact ⟨_, _, hrun, rfl, rfl⟩
  | ownSlot hshape hrun =>
    rw [hshape]
    exact ⟨_, _, hrun, rfl, .inl ⟨rfl, rfl⟩⟩
  | copy hshape hrun hne hnode =>
    rw [hshape]
    exact ⟨_, _, hrun, rfl, .inr ⟨hne, _, hnode, rfl⟩⟩
  | union hshape hrun | array hshape hrun =>
    rw [hshape]
    exact ⟨_, _, hrun, rfl, rfl⟩
  | reserve hshape hrun =>
    rw [hshape]
    exact ⟨rfl, hrun⟩
  | record hshape h₁ h₂ h₃ hnames =>
    rw [hshape]
    exact ⟨rfl, _, _, _, _, _, _, h₁, h₂, h₃, hnames, rfl⟩

section References

variable {path component : String}

theorem of_external (h : Lowers c (.schema name slot (.reference path)) s o s')
    (hname : Reference.localName? path = .ok none) :
    o = .type s.next ∧ s' = s.push (.unknown ("external reference " ++ path)) := by
  have hcomes : c.ReferenceComesTo path s o s' := h.comesTo rfl
  simpa only [ApiComponents.ReferenceComesTo, hname] using hcomes

theorem of_known (h : Lowers c (.schema name slot (.reference path)) s o s')
    (hname : Reference.localName? path = .ok (some component)) {id : TypeId}
    (hid : s.components.lookup component = some id) : o = .type id ∧ s' = s := by
  have hcomes : c.ReferenceComesTo path s o s' := h.comesTo rfl
  simpa only [ApiComponents.ReferenceComesTo, hname, hid] using hcomes

theorem of_unresolved (h : Lowers c (.schema name slot (.reference path)) s o s')
    (hname : Reference.localName? path = .ok (some component))
    (hnew : s.components.lookup component = none)
    (hresolve : c.resolveSchema (.reference path) = .ok none) : o = .type s.next ∧
      s' = (s.enter component path).put s.next (.unknown ("unresolved reference " ++ path)) := by
  have hcomes : c.ReferenceComesTo path s o s' := h.comesTo rfl
  simpa only [ApiComponents.ReferenceComesTo, hname, hnew, hresolve] using hcomes

theorem of_entered (h : Lowers c (.schema name slot (.reference path)) s o s')
    (hname : Reference.localName? path = .ok (some component))
    (hnew : s.components.lookup component = none) {target : Schema}
    (hresolve : c.resolveSchema (.reference path) = .ok (some target)) : o = .type s.next ∧
      Lowers c (.schema (some component) (some s.next) target) (s.enter component path) o s' := by
  have hcomes : c.ReferenceComesTo path s o s' := h.comesTo rfl
  simpa only [ApiComponents.ReferenceComesTo, hname, hnew, hresolve] using hcomes

end References

end Lowers

theorem Lowers.leaf_new {name : Option String} {schema : Schema} {node : TypeNode}
    (h : schema.shape c = .leaf node) :
    Lowers c (.schema name none schema) s (.type s.next) (s.push node) := .leaf h

theorem Lowers.length_eq {schemas : List Schema} {ids : List TypeId}
    (h : Lowers c (.each schemas) s (.types ids) s') : ids.length = schemas.length := by
  induction schemas generalizing s ids with
  | nil =>
    cases h
    rfl
  | cons schema schemas ih =>
    cases h with
    | eachCons _ hrest => simp [ih hrest]

/-- Nothing is lost: neither ids nor the ids of components. -/
structure LoweringState.Extends (s s' : LoweringState) : Prop where
  size_le : s.graph.size ≤ s'.graph.size
  lookup : ∀ name id, s.components.lookup name = some id → s'.components.lookup name = some id

namespace LoweringState.Extends

theorem refl (s : LoweringState) : s.Extends s := ⟨Nat.le_refl _, fun _ _ h => h⟩

theorem trans {s'' : LoweringState} (h : s.Extends s') (h' : s'.Extends s'') : s.Extends s'' :=
  ⟨Nat.le_trans h.size_le h'.size_le, fun name id hid => h'.lookup name id (h.lookup name id hid)⟩

theorem has (h : s.Extends s') {id : TypeId} (hid : s.Has id) : s'.Has id :=
  Nat.lt_of_lt_of_le hid h.size_le

theorem push (s : LoweringState) (node : TypeNode) : s.Extends (s.push node) :=
  ⟨by simp, fun _ _ h => h⟩

theorem put (s : LoweringState) (id : TypeId) (node : TypeNode) : s.Extends (s.put id node) :=
  ⟨by simp, fun _ _ h => h⟩

theorem place (s : LoweringState) (node : TypeNode) (slot : Option TypeId) :
    s.Extends (s.place node slot).2 := by
  cases slot with
  | none => exact push s node
  | some slot => exact put s slot node

theorem enter {name : String} (h : s.components.lookup name = none) (path : String) :
    s.Extends (s.enter name path) where
  size_le := (push s .pending).size_le
  lookup name' id hid := by
    have hne : (name' == name) = false := by
      by_contra heq
      rw [Bool.not_eq_false, beq_iff_eq] at heq
      rw [heq, h] at hid
      cases hid
    simp only [LoweringState.enter, List.lookup_cons, hne]
    exact hid

end LoweringState.Extends

theorem Lowers.extends (h : Lowers c t s o s') : s.Extends s' := by
  induction h with
  | external => exact .push _ _
  | known => exact .refl _
  | unresolved _ hnew _ => exact (LoweringState.Extends.enter hnew _).trans (.put _ _ _)
  | entered _ hnew _ _ ih => exact (LoweringState.Extends.enter hnew _).trans ih
  | leaf => exact .place _ _ _
  | through _ _ ih | ownSlot _ _ ih => exact ih
  | copy _ _ _ _ ih => exact ih.trans (.put _ _ _)
  | union _ _ ih | array _ _ ih => exact ih.trans (.place _ _ _)
  | openArray => exact (LoweringState.Extends.push _ _).trans (.place _ _ _)
  | reserve _ _ ih => exact (LoweringState.Extends.push _ _).trans ih
  | record _ _ _ _ _ ih₁ ih₂ ih₃ => exact ((ih₁.trans ih₂).trans ih₃).trans (.put _ _ _)
  | eachNil | membersNil => exact .refl _
  | eachCons _ _ ih₁ ih₂ => exact ih₁.trans ih₂
  | membersCons _ _ _ ih₁ ih₂ => exact ih₁.trans ih₂

theorem Lowers.lookup_reference {name : Option String} {slot : Option TypeId}
    {path component : String} (h : Lowers c (.schema name slot (.reference path)) s o s')
    (hname : Reference.localName? path = .ok (some component)) :
    ∃ id, o = .type id ∧ s'.components.lookup component = some id := by
  cases h with
  | external hname' => cases hname.symm.trans hname'
  | known hname' hid =>
    cases hname.symm.trans hname'
    exact ⟨_, rfl, hid⟩
  | unresolved hname' =>
    cases hname.symm.trans hname'
    exact ⟨_, rfl, LoweringState.lookup_enter_self⟩
  | entered hname' _ _ hrun =>
    cases hname.symm.trans hname'
    exact ⟨_, rfl, hrun.extends.lookup _ _ LoweringState.lookup_enter_self⟩
  | leaf hshape | through hshape | ownSlot hshape | copy hshape | union hshape | array hshape
  | openArray hshape | reserve hshape | record hshape => cases hshape

/-- Every id that the state speaks of is one of its graph. -/
structure LoweringState.InRange (s : LoweringState) : Prop where
  closed : s.graph.Closed
  components : ∀ entry ∈ s.components, s.Has entry.2
  pointers : ∀ entry ∈ s.pointers, s.Has entry.1

namespace LoweringState.InRange

theorem initial : initial.InRange where
  closed _ hnode := by simp [LoweringState.initial, TypeGraph.empty] at hnode
  components _ h := by simp [LoweringState.initial] at h
  pointers _ h := by simp [LoweringState.initial] at h

theorem lookup (h : s.InRange) {name : String} {id : TypeId}
    (hid : s.components.lookup name = some id) : s.Has id := by
  obtain ⟨before, after, heq, _⟩ := List.lookup_eq_some_iff.1 hid
  exact h.components (name, id) (by simp [heq])

theorem push (h : s.InRange) (node : TypeNode) (hnode : ∀ id ∈ node.references, s.Has id) :
    (s.push node).InRange where
  closed node' hnode' id hid := by
    rcases Array.mem_push.1 hnode' with hnode' | rfl
    · exact (Extends.push s node).has (h.closed node' hnode' id hid)
    · exact (Extends.push s _).has (hnode id hid)
  components entry hentry := (Extends.push s node).has (h.components entry hentry)
  pointers entry hentry := (Extends.push s node).has (h.pointers entry hentry)

theorem put (h : s.InRange) (id : TypeId) (node : TypeNode)
    (hnode : ∀ id ∈ node.references, s.Has id) : (s.put id node).InRange where
  closed node' hnode' r hr := by
    rcases Array.mem_or_eq_of_mem_setIfInBounds hnode' with hnode' | rfl
    · exact (Extends.put s id node).has (h.closed node' hnode' r hr)
    · exact (Extends.put s id _).has (hnode r hr)
  components entry hentry := (Extends.put s id node).has (h.components entry hentry)
  pointers entry hentry := (Extends.put s id node).has (h.pointers entry hentry)

theorem place (h : s.InRange) (node : TypeNode) (hnode : ∀ id ∈ node.references, s.Has id)
    {slot : Option TypeId} (hslot : ∀ id ∈ slot, s.Has id) :
    (s.place node slot).2.InRange ∧ (s.place node slot).2.Has (s.place node slot).1 := by
  cases slot with
  | none => exact ⟨h.push node hnode, Nat.lt_of_lt_of_eq (Nat.lt_succ_self _) push_size.symm⟩
  | some slot => exact ⟨h.put slot node hnode, (Extends.put s slot node).has (hslot slot rfl)⟩

theorem has_next {node : TypeNode} : (s.push node).Has s.next :=
  Nat.lt_of_lt_of_eq (Nat.lt_succ_self _) push_size.symm

theorem enter (h : s.InRange) (name path : String) : (s.enter name path).InRange where
  closed := (h.push .pending nofun).closed
  components entry hentry := by
    rcases List.mem_cons.1 hentry with rfl | hentry
    · exact has_next
    · exact (Extends.push s .pending).has (h.components entry hentry)
  pointers entry hentry := by
    rcases List.mem_cons.1 hentry with rfl | hentry
    · exact has_next
    · exact (Extends.push s .pending).has (h.pointers entry hentry)

end LoweringState.InRange

private theorem references_rename (name : Option String) (node : TypeNode) :
    (Lowering.rename name node).references = node.references := by
  unfold Lowering.rename
  split <;> rfl

private theorem references_record {name : Option String} {bases : List TypeId}
    {fields : List Field} (hbases : ∀ id ∈ bases, s.Has id)
    (hfields : ∀ id ∈ fields.map (·.type), s.Has id) :
    ∀ id ∈ (TypeNode.record name bases.head? fields).references, s.Has id := by
  intro id hid
  rcases List.mem_append.1 hid with hid | hid
  · exact hbases id (List.mem_of_mem_head? (by simpa using hid))
  · exact hfields id hid

theorem Lowers.inRange (h : Lowers c t s o s') (hs : s.InRange) (hslot : ∀ id ∈ t.slot?, s.Has id) :
    s'.InRange ∧ ∀ id ∈ o.ids, s'.Has id := by
  have single {s : LoweringState} {id : TypeId} (h : s.Has id) :
      ∀ i ∈ (Outcome.type id).ids, s.Has i := by simpa [Outcome.ids] using h
  induction h with
  | external => exact ⟨hs.push _ nofun, single LoweringState.InRange.has_next⟩
  | known _ hid => exact ⟨hs, single (hs.lookup hid)⟩
  | unresolved _ hnew _ =>
    refine ⟨(hs.enter _ _).put _ _ nofun, single ?_⟩
    exact (LoweringState.Extends.put _ _ _).has LoweringState.InRange.has_next
  | entered _ hnew _ _ ih =>
    exact ih (hs.enter _ _) (by rintro _ ⟨⟩; exact LoweringState.InRange.has_next)
  | leaf hshape =>
    have hnode := (Schema.settled_shape hshape).1
    exact (hs.place _ (by rw [hnode]; exact nofun) hslot).imp_right single
  | through _ _ ih => exact ih hs nofun
  | ownSlot _ _ ih => exact ih hs nofun
  | copy _ h _ hnode ih =>
    obtain ⟨hs', hid⟩ := ih hs nofun
    refine ⟨hs'.put _ _ ?_, single ?_⟩
    · rw [references_rename]
      exact fun r hr => hs'.closed.has_reference hnode hr
    · exact (LoweringState.Extends.put _ _ _).has (h.extends.has (hslot _ rfl))
  | union _ h ih =>
    obtain ⟨hs', hids⟩ := ih hs nofun
    exact (hs'.place (.union _ _) hids fun id hid => h.extends.has (hslot id hid)).imp_right single
  | array _ h ih =>
    obtain ⟨hs', hids⟩ := ih hs nofun
    exact (hs'.place (.array _) hids fun id hid => h.extends.has (hslot id hid)).imp_right single
  | openArray =>
    refine ((hs.push (.unknown _) nofun).place (.array _) (single ?_) ?_).imp_right single
    · exact LoweringState.InRange.has_next
    · exact fun id hid => (LoweringState.Extends.push _ _).has (hslot id hid)
  | reserve _ _ ih =>
    exact ih (hs.push _ nofun) (by rintro _ ⟨⟩; exact LoweringState.InRange.has_next)
  | record _ h₁ h₂ h₃ _ ih₁ ih₂ ih₃ =>
    obtain ⟨hs₁, hbases⟩ := ih₁ hs nofun
    obtain ⟨hs₂, hcopied⟩ := ih₂ hs₁ nofun
    obtain ⟨hs₃, hown⟩ := ih₃ hs₂ nofun
    have h₂₃ := h₂.extends.trans h₃.extends
    refine ⟨hs₃.put _ _ (references_record (fun id hid => h₂₃.has (hbases id hid)) ?_), single ?_⟩
    · intro id hid
      rw [List.map_append] at hid
      rcases List.mem_append.1 hid with hid | hid
      · exact h₃.extends.has (hcopied id hid)
      · exact hown id hid
    · exact (LoweringState.Extends.put _ _ _).has ((h₁.extends.trans h₂₃).has (hslot _ rfl))
  | eachNil | membersNil => exact ⟨hs, nofun⟩
  | eachCons _ h₂ ih₁ ih₂ =>
    obtain ⟨hs₁, hid⟩ := ih₁ hs nofun
    obtain ⟨hs₂, hids⟩ := ih₂ hs₁ nofun
    refine ⟨hs₂, fun i hi => ?_⟩
    rcases List.mem_cons.1 hi with rfl | hi
    · exact h₂.extends.has (hid _ List.mem_cons_self)
    · exact hids i hi
  | membersCons _ hfields h₂ ih₁ ih₂ =>
    obtain ⟨hs₁, hid⟩ := ih₁ hs nofun
    obtain ⟨hs₂, hrest⟩ := ih₂ hs₁ nofun
    obtain ⟨fields, heq, htypes⟩ := hs₁.closed.allFields_ok (hid _ List.mem_cons_self)
    rw [hfields] at heq
    cases heq
    refine ⟨hs₂, fun i hi => ?_⟩
    rw [Outcome.ids, List.map_append] at hi
    rcases List.mem_append.1 hi with hi | hi
    · obtain ⟨f, hf, rfl⟩ := List.mem_map.1 hi
      exact h₂.extends.has (htypes f hf)
    · exact hrest i hi

private theorem get_put_of_slot_ne {node : TypeNode} {slot id : TypeId}
    (hne : some slot ≠ some id) : (s.put slot node).graph.get id = s.graph.get id :=
  LoweringState.get_put_of_ne fun heq => hne (congrArg some heq.symm)

private theorem get_place {node : TypeNode} {slot : Option TypeId} {id : TypeId} (hid : s.Has id)
    (hne : slot ≠ some id) : (s.place node slot).2.graph.get id = s.graph.get id := by
  cases slot with
  | none => exact LoweringState.get_push hid
  | some slot => exact get_put_of_slot_ne hne

/-- Of the nodes that were there, only the one at the slot changes. -/
theorem Lowers.get_eq (h : Lowers c t s o s') {id : TypeId} (hid : s.Has id)
    (hne : t.slot? ≠ some id) : s'.graph.get id = s.graph.get id := by
  have fresh {s : LoweringState} (hid : s.Has id) : some s.next ≠ some id :=
    fun heq => LoweringState.ne_next_of_has hid (Option.some.inj heq).symm
  induction h with
  | external => exact LoweringState.get_push hid
  | known => rfl
  | unresolved =>
    exact (get_put_of_slot_ne (fresh hid)).trans (LoweringState.get_push hid)
  | entered _ hnew _ _ ih =>
    refine (ih ?_ (fresh hid)).trans (LoweringState.get_push hid)
    exact (LoweringState.Extends.enter hnew _).has hid
  | leaf => exact get_place hid hne
  | through _ _ ih | ownSlot _ _ ih => exact ih hid nofun
  | copy _ h _ _ ih => exact (get_put_of_slot_ne hne).trans (ih hid nofun)
  | union _ h ih | array _ h ih => exact (get_place (h.extends.has hid) hne).trans (ih hid nofun)
  | openArray =>
    refine (get_place ?_ hne).trans (LoweringState.get_push hid)
    exact (LoweringState.Extends.push _ _).has hid
  | reserve _ _ ih =>
    refine (ih ?_ (fresh hid)).trans (LoweringState.get_push hid)
    exact (LoweringState.Extends.push _ _).has hid
  | record _ h₁ h₂ h₃ _ ih₁ ih₂ ih₃ =>
    have hid₁ := h₁.extends.has hid
    have hid₂ := h₂.extends.has hid₁
    calc _ = _ := get_put_of_slot_ne hne
      _ = _ := ih₃ hid₂ nofun
      _ = _ := ih₂ hid₁ nofun
      _ = _ := ih₁ hid nofun
  | eachNil | membersNil => rfl
  | eachCons h₁ _ ih₁ ih₂ | membersCons h₁ _ _ ih₁ ih₂ =>
    exact (ih₂ (h₁.extends.has hid) nofun).trans (ih₁ hid nofun)

theorem Lowers.type_eq_slot {name : Option String} {slot id : TypeId} {schema : Schema}
    (h : Lowers c (.schema name (some slot) schema) s (.type id) s') (hpath : schema.path? = none) :
    id = slot := by
  cases h with
  | external | known | unresolved | entered => cases hpath
  | leaf | ownSlot | copy | union | array | openArray | record => rfl

end RequestDocs.OpenApi
