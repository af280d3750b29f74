import RequestDocs.Proofs.TypedRuns
/-!
# Unfolded types

A type written out to a depth, with all fields of its records. Ids of two graphs that are types of one
schema are the same when they are written out.
-/

namespace RequestDocs

/-- A type written out; what is below the depth is cut off. -/
inductive TypeTree
  | cut
  | scalar (name : String)
  | literal (value : Json)
  | record (name : Option String) (fields : List (String × TypeTree))
  | union (name : Option String) (variants : List TypeTree)
  | array (element : TypeTree)
  | unknown (kind : String)

def TypeGraph.unfold (g : TypeGraph) : (depth : Nat) → TypeId → Except Fault TypeTree
  | 0, _ => return .cut
  | depth + 1, id => do
    match ← g.get id with
    | .scalar name => return .scalar name
    | .literal value => return .literal value
    | .record name _ _ =>
      return .record name (← (← g.allFields id).mapM fun field =>
        return (field.name, ← g.unfold depth field.type))
    | .union name variants => return .union name (← variants.mapM (g.unfold depth))
    | .array element => return .array (← g.unfold depth element)
    | .unknown kind => return .unknown kind

def Agree {α : Type} (x y : Except Fault α) : Prop := ∃ a, x = .ok a ∧ y = .ok a

namespace Agree

theorem pure {α : Type} (a : α) : Agree (Pure.pure a) (Pure.pure a) := ⟨a, rfl, rfl⟩

theorem bind {α β : Type} {x y : Except Fault α} {f g : α → Except Fault β} (h : Agree x y)
    (hnext : ∀ a, Agree (f a) (g a)) : Agree (x >>= f) (y >>= g) := by
  obtain ⟨a, rfl, rfl⟩ := h
  exact hnext a

theorem mapM {α β γ : Type} {f : α → Except Fault γ} {g : β → Except Fault γ} {xs : List α}
    {ys : List β} (h : List.Forall₂ (fun x y => Agree (f x) (g y)) xs ys) :
    Agree (xs.mapM f) (ys.mapM g) := by
  induction h with
  | nil => exact .pure []
  | cons hxy _ ih =>
    rw [List.mapM_cons, List.mapM_cons]
    exact hxy.bind fun _ => ih.bind fun _ => .pure _

end Agree

namespace OpenApi

variable {c : ApiComponents} {s s' : LoweringState}

/-- A state in which no component is pending and all have the nodes they stand for. -/
structure LoweringState.Whole (c : ApiComponents) (s : LoweringState) : Prop where
  inRange : s.InRange
  knit : s.Knit c none
  pending : ∀ id, ¬s.Pending id

private theorem LoweringState.Whole.typed (h : s.Whole c) {component : String} {id : TypeId}
    (hslot : s.SlotOf component id) : s.Typed c component id :=
  h.knit.typed component id hslot (h.pending id) nofun

private theorem LoweringState.Whole.supplies (h : s.Whole c) : s.Supplies c fun _ => True where
  separate := h.knit.separate
  known _ _ hslot := .inr (h.typed hslot)
  filled _ id _ _ := h.pending id
  leads _ _ _ _ := trivial

private theorem exists_common {α β γ : Type} {r : α → β → Prop} {r' : α → γ → Prop} {xs : List α}
    {ys : List β} {zs : List γ} (h : List.Forall₂ r xs ys) (h' : List.Forall₂ r' xs zs) :
    List.Forall₂ (fun y z => ∃ x, r x y ∧ r' x z) ys zs := by
  induction h generalizing zs with
  | nil =>
    cases h'
    exact .nil
  | cons hxy _ ih =>
    cases h' with
    | cons hxz h' => exact .cons ⟨_, hxy, hxz⟩ (ih h')

private theorem exists_fields (hs : s.Whole c) (hs' : s'.Whole c) {name : Option String}
    {final : Schema} {id id' : TypeId} (h : Realizes c s (.node name final) id)
    (h' : Realizes c s' (.node name final) id') (hid : s.Has id) (hid' : s'.Has id') :
    ∃ fields fields', s.graph.allFields id = .ok fields ∧ s'.graph.allFields id' = .ok fields' ∧
      List.Forall₂ (fun field field' => ∃ entry : String × Schema,
        (field.name = entry.1 ∧ Realizes c s (.type entry.2) field.type) ∧
        (field'.name = entry.1 ∧ Realizes c s' (.type entry.2) field'.type)) fields fields' := by
  obtain ⟨fields, hfields, _⟩ := hs.inRange.closed.allFields_ok hid
  obtain ⟨fields', hfields', _⟩ := hs'.inRange.closed.allFields_ok hid'
  obtain ⟨entries, hentries, hmatch⟩ := h.allFields hs.supplies (fun _ _ => trivial) hfields
  obtain ⟨entries', hentries', hmatch'⟩ := h'.allFields hs'.supplies (fun _ _ => trivial) hfields'
  cases hentries.unique hentries'
  exact ⟨fields, fields', hfields, hfields', exists_common hmatch hmatch'⟩

private theorem unfold_of_leaf {g g' : TypeGraph} {depth : Nat} {node : TypeNode} {id id' : TypeId}
    (hreferences : node.references = []) (hrecord : node.isRecord = false)
    (hget : g.get id = .ok node) (hget' : g'.get id' = .ok node) :
    Agree (g.unfold (depth + 1) id) (g'.unfold (depth + 1) id') := by
  rw [TypeGraph.unfold, TypeGraph.unfold, hget, hget']
  cases node with
  | scalar name => exact .pure (TypeTree.scalar name)
  | literal value => exact .pure (TypeTree.literal value)
  | unknown kind => exact .pure (TypeTree.unknown kind)
  | union name variants =>
    obtain rfl : variants = [] := hreferences
    exact .pure (TypeTree.union name [])
  | array => cases hreferences
  | record => cases hrecord

theorem unfold_of_unknown {g g' : TypeGraph} {depth : Nat} {kind : String} {id id' : TypeId}
    (hget : g.get id = .ok (.unknown kind)) (hget' : g'.get id' = .ok (.unknown kind)) :
    Agree (g.unfold depth id) (g'.unfold depth id') := by
  cases depth with
  | zero => exact .pure TypeTree.cut
  | succ depth => exact unfold_of_leaf rfl rfl hget hget'

/-- What is found at an id with the layer of a schema, by the shape of the schema. -/
def LoweringState.HasLayer (c : ApiComponents) (s : LoweringState) (name : Option String)
    (id : TypeId) : Shape → Prop
  | .reference path =>
    match Reference.localName? path with
    | .error _ => False
    | .ok none => s.graph.get id = .ok (.unknown ("external reference " ++ path))
    | .ok (some _) => s.graph.get id = .ok (.unknown ("unresolved reference " ++ path))
  | .leaf node => s.graph.get id = .ok node
  | .sameAs _ => False
  | .union variants => ∃ ids, s.graph.get id = .ok (.union name ids) ∧
    List.Forall₂ (fun variant id => Realizes c s (.type variant) id) variants ids
  | .array element => ∃ elementId, s.graph.get id = .ok (.array elementId) ∧
    Realizes c s (.type element) elementId
  | .openArray kind => ∃ elementId, s.graph.get id = .ok (.array elementId) ∧
    s.graph.get elementId = .ok (.unknown kind)
  | .record _ _ _ => ∃ baseId fields, s.graph.get id = .ok (.record name baseId fields)

theorem Realizes.layer {name : Option String} {final : Schema} {shape : Shape} {id : TypeId}
    (h : Realizes c s (.node name final) id) (hshape : final.shape c = shape) :
    s.HasLayer c name id shape := by
  subst hshape
  cases h with
  | external hname hget | unresolved hname hget =>
    change s.HasLayer c name id (.reference _)
    rw [LoweringState.HasLayer, hname]
    exact hget
  | leaf hshape hget =>
    rw [hshape]
    exact hget
  | union hshape hget hlength hids =>
    rw [hshape]
    exact ⟨_, hget, List.forall₂_iff_zip.2 ⟨hlength, fun hmem => hids _ hmem⟩⟩
  | array hshape hget helement | openArray hshape hget helement =>
    rw [hshape]
    exact ⟨_, hget, helement⟩
  | record hshape hget =>
    rw [hshape]
    exact ⟨_, _, hget⟩

/-- Nodes with the layer of one schema are the same when they are written out, if the types below are. -/
private theorem unfold_of_nodes (hs : s.Whole c) (hs' : s'.Whole c) {depth : Nat}
    (hbelow : ∀ {m : Meaning} {id id' : TypeId}, Realizes c s m id → Realizes c s' m id' →
      Agree (s.graph.unfold depth id) (s'.graph.unfold depth id'))
    {name : Option String} {final : Schema} {id id' : TypeId}
    (h : Realizes c s (.node name final) id) (h' : Realizes c s' (.node name final) id') :
    Agree (s.graph.unfold (depth + 1) id) (s'.graph.unfold (depth + 1) id') := by
  cases hshape : final.shape c with
  | reference path =>
    have hlayer := h.layer hshape
    have hlayer' := h'.layer hshape
    rw [LoweringState.HasLayer] at hlayer hlayer'
    match hname : Reference.localName? path with
    | .error _ =>
      rw [hname] at hlayer
      exact hlayer.elim
    | .ok none | .ok (some _) =>
      rw [hname] at hlayer hlayer'
      exact unfold_of_leaf rfl rfl hlayer hlayer'
  | leaf node =>
    exact unfold_of_leaf (Schema.settled_shape hshape).1 (isRecord_of_leaf hshape) (h.layer hshape)
      (h'.layer hshape)
  | sameAs => exact (h.layer hshape).elim
  | union variants =>
    obtain ⟨ids, hget, hids⟩ := h.layer hshape
    obtain ⟨ids', hget', hids'⟩ := h'.layer hshape
    rw [TypeGraph.unfold, TypeGraph.unfold, hget, hget']
    have hvariants := Agree.mapM ((exists_common hids hids').imp fun _ _ ⟨_, h, h'⟩ => hbelow h h')
    exact hvariants.bind fun _ => .pure _
  | array element =>
    obtain ⟨_, hget, helement⟩ := h.layer hshape
    obtain ⟨_, hget', helement'⟩ := h'.layer hshape
    rw [TypeGraph.unfold, TypeGraph.unfold, hget, hget']
    exact (hbelow helement helement').bind fun _ => .pure _
  | openArray kind =>
    obtain ⟨_, hget, helement⟩ := h.layer hshape
    obtain ⟨_, hget', helement'⟩ := h'.layer hshape
    rw [TypeGraph.unfold, TypeGraph.unfold, hget, hget']
    exact (unfold_of_unknown helement helement').bind fun _ => .pure _
  | record base members properties =>
    obtain ⟨_, _, hget⟩ := h.layer hshape
    obtain ⟨_, _, hget'⟩ := h'.layer hshape
    obtain ⟨fields, fields', hfields, hfields', hcommon⟩ :=
      exists_fields hs hs' h h' (TypeGraph.has_of_get hget) (TypeGraph.has_of_get hget')
    rw [TypeGraph.unfold, TypeGraph.unfold, hget, hget', hfields, hfields']
    refine (Agree.mapM (hcommon.imp ?_)).bind fun _ => .pure _
    rintro field field' ⟨entry, ⟨hname, htype⟩, hname', htype'⟩
    rw [hname, hname']
    exact (hbelow htype htype').bind fun _ => .pure _

theorem Realizes.unfold (hs : s.Whole c) (hs' : s'.Whole c) (depth : Nat) {m : Meaning}
    {id id' : TypeId} (h : Realizes c s m id) (h' : Realizes c s' m id') :
    Agree (s.graph.unfold depth id) (s'.graph.unfold depth id') := by
  induction depth generalizing m id id' with
  | zero => exact .pure TypeTree.cut
  | succ depth ih =>
    cases m with
    | node => exact unfold_of_nodes hs hs' ih h h'
    | type schema =>
      obtain ⟨name, final, hkey, hstands, hnode⟩ := h.node_of_type fun _ _ => hs.typed
      obtain ⟨name', final', hkey', hstands', hnode'⟩ := h'.node_of_type fun _ _ => hs'.typed
      cases hkey.unique (fun _ _ => Denotes.unique) hkey'
      cases hstands.unique hstands'
      exact unfold_of_nodes hs hs' ih hnode hnode'

end OpenApi

end RequestDocs
