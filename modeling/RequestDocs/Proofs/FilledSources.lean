import RequestDocs.Proofs.Placeholders
import RequestDocs.Proofs.Sources
/-!
# Sources without placeholders

Between two bodies nothing is being lowered. So while no component is the same as one that leads to
it, a source has no pending types, and its components have nodes of their shape.
-/

namespace RequestDocs

open OpenApi Relation

def TypeGraph.Refers (g : TypeGraph) (id id' : TypeId) : Prop :=
  ∃ node, g.get id = .ok node ∧ id' ∈ node.references

namespace Source

def SlotOf (source : Source) (name : String) (id : TypeId) : Prop :=
  ∃ path, (id, path) ∈ source.pointers ∧ Reference.localName? path = .ok (some name)

/-- Nothing is left pending, neither what bodies reach nor the ids of components. Components have
nodes of their shape under their names, and those that have the type of another component have its
node. -/
structure Filled (c : ApiComponents) (source : Source) : Prop where
  bodies : ∀ service ∈ source.services, ∀ op ∈ service.operations, ∀ body ∈ op.body, ∀ id,
    ReflTransGen source.types.Refers body.type id → source.types.get id ≠ .ok .pending
  slots : ∀ pointer ∈ source.pointers, source.types.get pointer.1 ≠ .ok .pending
  shapes : ∀ pointer ∈ source.pointers, ∀ name schema,
    Reference.localName? pointer.2 = .ok (some name) →
    c.resolveSchema (.reference pointer.2) = .ok (some schema) →
    ∃ node, source.types.get pointer.1 = .ok node ∧
      Fits c source.types source.SlotOf (some name) schema node
  aliases : ∀ pointer ∈ source.pointers, ∀ name schema component,
    Reference.localName? pointer.2 = .ok (some name) →
    c.resolveSchema (.reference pointer.2) = .ok (some schema) → Denotes c schema component →
    ∃ id node, source.SlotOf component id ∧ source.types.get id = .ok node ∧
      source.types.get pointer.1 = .ok (Lowering.rename (some name) node)

end Source

namespace OpenApi

variable {c : ApiComponents} {t : Task} {o : Outcome} {s s' : LoweringState}

theorem Fits.of_denotes {g : TypeGraph} {slot : String → TypeId → Prop} {name : Option String}
    {schema : Schema} {node : TypeNode} {component : String} (h : Fits c g slot name schema node)
    (hdenotes : Denotes c schema component) :
    ∃ id node', slot component id ∧ g.get id = .ok node' ∧ node = Lowering.rename name node' := by
  induction hdenotes with
  | reference hname =>
    cases h with
    | external hname' => cases hname.symm.trans hname'
    | component hname' hid hnode =>
      cases hname.symm.trans hname'
      exact ⟨_, _, hid, hnode, rfl⟩
    | leaf hshape | sameAs hshape | union hshape | array hshape | openArray hshape
    | record hshape => cases hshape
  | sameAs hshape _ ih =>
    cases h with
    | sameAs hshape' h =>
      cases hshape.symm.trans hshape'
      exact ih h
    | external | component => cases hshape
    | leaf hshape' | union hshape' | array hshape' | openArray hshape' | record hshape' =>
      cases hshape.symm.trans hshape'

def LoweringState.Pointed (s : LoweringState) : Prop :=
  ∀ name id, s.SlotOf name id →
    ∃ path, (id, path) ∈ s.pointers ∧ Reference.localName? path = .ok (some name)

private theorem LoweringState.Pointed.enter (h : s.Pointed) {name path : String}
    (hname : Reference.localName? path = .ok (some name)) : (s.enter name path).Pointed := by
  intro name' id hslot
  rcases LoweringState.lookup_enter hslot with ⟨rfl, rfl⟩ | ⟨_, hslot⟩
  · exact ⟨path, List.mem_cons_self, hname⟩
  · obtain ⟨path', hmem, hname'⟩ := h name' id hslot
    exact ⟨path', List.mem_cons_of_mem _ hmem, hname'⟩

private theorem Lowers.pointed (h : Lowers c t s o s') (hs : s.Pointed) : s'.Pointed := by
  have hpush {s : LoweringState} {node : TypeNode} (hs : s.Pointed) : (s.push node).Pointed := hs
  have hplace {s : LoweringState} {node : TypeNode} {slot : Option TypeId} (hs : s.Pointed) :
      (s.place node slot).2.Pointed := by
    intro name id hslot
    rw [LoweringState.SlotOf, LoweringState.place_components] at hslot
    rw [LoweringState.place_pointers]
    exact hs name id hslot
  induction h with
  | external | eachNil | membersNil | known => exact hs
  | unresolved hname => exact hs.enter hname
  | entered hname _ _ _ ih => exact ih (hs.enter hname)
  | leaf => exact hplace hs
  | openArray => exact hplace (hpush hs)
  | through _ _ ih | ownSlot _ _ ih | copy _ _ _ _ ih | reserve _ _ ih => exact ih hs
  | union _ _ ih | array _ _ ih => exact hplace (ih hs)
  | record _ _ _ _ _ ih₁ ih₂ ih₃ => exact ih₃ (ih₂ (ih₁ hs))
  | eachCons _ _ ih₁ ih₂ | membersCons _ _ _ ih₁ ih₂ => exact ih₂ (ih₁ hs)

structure LoweringState.Rests (c : ApiComponents) (s : LoweringState) : Prop where
  inRange : s.InRange
  pending : ∀ id, ¬s.Pending id
  shaped : ∀ pointer ∈ s.pointers, s.Shaped c pointer
  pointed : s.Pointed

theorem LoweringState.Rests.initial : initial.Rests c where
  inRange := .initial
  pending _ h := absurd h.has (Nat.not_lt_zero _)
  shaped := nofun
  pointed := nofun

theorem LoweringState.Rests.starts (h : s.Rests c) (schema : Schema) :
    (Task.schema none none schema).Starts c none s where
  inRange := h.inRange
  slot := noSlot
  waits _ hw := by
    obtain ⟨id, _, hid⟩ := hw
    exact absurd hid (h.pending id)
  parts := (by simp)
  free _ := ⟨rfl, rfl⟩
  slotFor := (by simp)

variable {op : ApiOperation} {ops : List ApiOperation}

theorem DescribesBody.rests (hc : c.AliasesApart) {body : Option Body}
    (h : DescribesBody c op s body s') (hs : s.Rests c) : s'.Rests c := by
  cases h with
  | missing | empty => exact hs
  | unspecified =>
    have hkeeps : s.Keeps (s.push (.unknown "unspecified")) := keeps_place none (by simp)
    refine ⟨hs.inRange.push _ (List.forall_mem_nil _), fun id hid => ?_, fun pointer hmem => ?_, hs.pointed⟩
    · rcases pending_push hid with hid | ⟨_, hnode⟩
      · exact hs.pending id hid
      · simp [TypeNode.pending] at hnode
    · exact hkeeps.shaped (hs.shaped pointer hmem)
  | schema _ hrun =>
    have hfills := hrun.fills hc (hs.starts _)
    refine ⟨(hrun.inRange hs.inRange noSlot).1, fun id hid => ?_, fun pointer hmem => ?_, ?_⟩
    · exact hs.pending id (hfills.pending id hid).1
    · rcases hfills.shaped pointer hmem with hmem | hshaped
      · exact (hrun.keeps noSlot).shaped (hs.shaped pointer hmem)
      · exact hshaped
    · exact hrun.pointed hs.pointed

theorem DescribesAll.rests (hc : c.AliasesApart) {bodies : List (Option Body)}
    (h : DescribesAll c ops s bodies s') (hs : s.Rests c) : s'.Rests c := by
  induction h with
  | nil => exact hs
  | cons hbody _ ih => exact ih (hbody.rests hc hs)

/-- While no component is the same as one that leads to it, sources have no placeholders. -/
theorem Api.LeadsTo.filled {api : Api} {source : Source} (h : api.LeadsTo source s)
    (hc : api.components.AliasesApart) : source.Filled api.components := by
  obtain ⟨_, _, hrun⟩ := h.bodies
  have hs := hrun.rests hc .initial
  have hslot : ∀ component id, s.SlotOf component id → source.SlotOf component id := by
    intro component id hid
    obtain ⟨path, hmem, hname⟩ := hs.pointed component id hid
    exact ⟨path, h.pointers ▸ hmem, hname⟩
  have hpending (id : TypeId) : source.types.get id ≠ .ok .pending := by
    rw [h.types]
    exact hs.pending id
  have hshapes (pointer) (hmem : pointer ∈ source.pointers) (name schema)
      (hname : Reference.localName? pointer.2 = .ok (some name))
      (hresolve : api.components.resolveSchema (.reference pointer.2) = .ok (some schema)) :
      ∃ node, source.types.get pointer.1 = .ok node ∧
        Fits api.components source.types source.SlotOf (some name) schema node := by
    rw [h.pointers] at hmem
    obtain ⟨node, hnode, _, hfits⟩ := hs.shaped pointer hmem name schema hname hresolve
    rw [h.types]
    exact ⟨node, hnode, hfits.mono hslot fun _ _ h _ => h⟩
  refine ⟨fun _ _ _ _ _ _ id _ => hpending id, fun _ _ => hpending _, hshapes, ?_⟩
  intro pointer hmem name schema component hname hresolve hdenotes
  obtain ⟨node, hnode, hfits⟩ := hshapes pointer hmem name schema hname hresolve
  obtain ⟨id, node', hid, hnode', rfl⟩ := hfits.of_denotes hdenotes
  exact ⟨id, node', hid, hnode', hnode⟩

end OpenApi

end RequestDocs
