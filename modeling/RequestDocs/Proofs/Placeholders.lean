import RequestDocs.Proofs.Waiting
/-!
# Placeholders

A component that is the same as another one copies the node of that, which is pending only if the
other one leads to it. While this is not so, every component has a node of its shape in the end.
-/

namespace RequestDocs.OpenApi

open Relation

variable {c : ApiComponents} {t t' : Task} {o : Outcome} {s s' s₁ : LoweringState}
  {owner : Option String}

/-- A node has the shape of a schema, where components have ids in a graph. A schema that has the
type of a component has the node of the component, apart from the name. -/
inductive Fits (c : ApiComponents) (g : TypeGraph) (slot : String → TypeId → Prop)
    (name : Option String) : Schema → TypeNode → Prop
  | external {path} : Reference.localName? path = .ok none →
      Fits c g slot name (.reference path) (.unknown ("external reference " ++ path))
  | component {path component id node} : Reference.localName? path = .ok (some component) →
      slot component id → g.get id = .ok node → node ≠ .pending →
      Fits c g slot name (.reference path) (Lowering.rename name node)
  | leaf {schema node} : schema.shape c = .leaf node → Fits c g slot name schema node
  | sameAs {schema target node} : schema.shape c = .sameAs target →
      Fits c g slot name target node → Fits c g slot name schema node
  | union {schema variants ids} : schema.shape c = .union variants →
      ids.length = variants.length → Fits c g slot name schema (.union name ids)
  | array {schema element id} : schema.shape c = .array element →
      Fits c g slot name schema (.array id)
  | openArray {schema kind id} : schema.shape c = .openArray kind →
      Fits c g slot name schema (.array id)
  | record {schema base members properties baseId copied own} :
      schema.shape c = .record base members properties → baseId.isSome = base.isSome →
      own.map Field.name = properties.map (·.1) →
      Fits c g slot name schema (.record name baseId (copied ++ own))

def LoweringState.Shaped (c : ApiComponents) (s : LoweringState) (pointer : TypeId × String) : Prop :=
  ∀ name schema, Reference.localName? pointer.2 = .ok (some name) →
    c.resolveSchema (.reference pointer.2) = .ok (some schema) →
    ∃ node, s.graph.get pointer.1 = .ok node ∧ node ≠ .pending ∧
      Fits c s.graph s.SlotOf (some name) schema node

/-- What a task leaves pending was pending, its slot apart. A schema without a slot comes to a
pending id only when it has the type of a component that waits. Components that are entered have
nodes of their shape at the end. -/
structure Fills (c : ApiComponents) (t : Task) (s : LoweringState) (o : Outcome)
    (s' : LoweringState) : Prop where
  pending : ∀ id, s'.Pending id → s.Pending id ∧ id ∉ t.slot?
  type : ∀ name schema id, t = .schema name none schema → o = .type id → s'.Pending id →
    ∃ component, Denotes c schema component ∧ s'.components.lookup component = some id
  shaped : ∀ pointer ∈ s'.pointers, pointer ∈ s.pointers ∨ s'.Shaped c pointer

/-- No component is the same as one that leads to it. -/
def ApiComponents.AliasesApart (c : ApiComponents) : Prop :=
  ∀ name schema target, c.Names name schema → Denotes c schema target →
    ¬ReflTransGen c.Leads target name

theorem Fits.mono {g g' : TypeGraph} {slot slot' : String → TypeId → Prop} {name : Option String}
    {schema : Schema} {node : TypeNode} (h : Fits c g slot name schema node)
    (hslot : ∀ component id, slot component id → slot' component id)
    (hget : ∀ id node, g.get id = .ok node → node ≠ .pending → g'.get id = .ok node) :
    Fits c g' slot' name schema node := by
  induction h with
  | external hname => exact .external hname
  | component hname hid hnode hne =>
    exact .component hname (hslot _ _ hid) (hget _ _ hnode hne) hne
  | leaf hshape => exact .leaf hshape
  | sameAs hshape _ ih => exact .sameAs hshape ih
  | union hshape hlength => exact .union hshape hlength
  | array hshape => exact .array hshape
  | openArray hshape => exact .openArray hshape
  | record hshape hbase hown => exact .record hshape hbase hown

theorem LoweringState.Keeps.fits (h : s.Keeps s') {name : Option String} {schema : Schema}
    {node : TypeNode} (hfits : Fits c s.graph s.SlotOf name schema node) :
    Fits c s'.graph s'.SlotOf name schema node := hfits.mono h.lookup h.get

theorem LoweringState.Keeps.shaped (h : s.Keeps s') {pointer : TypeId × String}
    (hshaped : s.Shaped c pointer) : s'.Shaped c pointer := by
  intro name schema hname hresolve
  obtain ⟨node, hnode, hne, hfits⟩ := hshaped name schema hname hresolve
  exact ⟨node, h.get _ node hnode hne, hne, h.fits hfits⟩

/-- What a task without a slot changes: the same is pending, and components that are entered
have nodes of their shape. -/
private structure Settles (c : ApiComponents) (s s' : LoweringState) : Prop extends s.Keeps s' where
  pending : ∀ id, s'.Pending id ↔ s.Pending id
  shaped : ∀ pointer ∈ s'.pointers, pointer ∈ s.pointers ∨ s'.Shaped c pointer

private theorem Settles.refl (s : LoweringState) : Settles c s s where
  toExtends := .refl s
  get _ _ hnode _ := hnode
  pending _ := Iff.rfl
  shaped _ hmem := .inl hmem

private theorem Settles.trans (h : Settles c s s₁) (h' : Settles c s₁ s') : Settles c s s' where
  toExtends := h.toExtends.trans h'.toExtends
  get id node hnode hne := h'.get id node (h.get id node hnode hne) hne
  pending id := (h'.pending id).trans (h.pending id)
  shaped pointer hmem := by
    rcases h'.shaped pointer hmem with hmem | hshaped
    · exact (h.shaped pointer hmem).imp_right h'.toKeeps.shaped
    · exact .inr hshaped

private theorem Fills.settles (h : Fills c t s o s') (hrun : Lowers c t s o s')
    (hslot : t.slot? = none) : Settles c s s' where
  toKeeps := hrun.keeps (by simp [hslot])
  pending id := ⟨fun hid => (h.pending id hid).1, fun hid =>
    (hrun.get_eq hid.has (by simp [hslot])).trans hid⟩
  shaped := h.shaped

private theorem Settles.push (s : LoweringState) {node : TypeNode} (hne : node ≠ .pending) :
    Settles c s (s.push node) where
  toKeeps := keeps_place none nofun
  pending id := by
    refine ⟨fun h => ?_, fun h => (LoweringState.get_push h.has).trans h⟩
    rcases pending_push h with h | ⟨_, heq⟩
    · exact h
    · exact absurd heq hne
  shaped _ := .inl

private theorem Settles.place {name : Option String} {slot : Option TypeId} {schema : Schema}
    {node : TypeNode} (h : Settles c s s₁) (hslot : ∀ id ∈ slot, s.Pending id)
    (hne : node ≠ .pending) :
    Fills c (.schema name slot schema) s (.type (s₁.place node slot).1)
      (s₁.place node slot).2 := by
  cases slot with
  | none =>
    have hpush := Settles.push (c := c) s₁ hne
    have h := h.trans hpush
    refine ⟨fun id hid => ⟨(h.pending id).1 hid, nofun⟩, ?_, h.shaped⟩
    rintro _ _ id ⟨⟩ ⟨⟩ hid
    exact absurd rfl (LoweringState.ne_next_of_has ((hpush.pending _).1 hid).has)
  | some slot =>
    refine ⟨fun id hid => ?_, nofun, fun pointer hmem => (h.shaped pointer hmem).imp_right ?_⟩
    · obtain ⟨hid, hne⟩ := pending_put hid hne
      exact ⟨(h.pending id).1 hid, fun heq => hne (Option.mem_some.1 heq).symm⟩
    · exact (keeps_place (some slot) fun id hid => (h.pending id).2 (hslot id hid)).shaped

theorem not_pending_of_sameAs (hc : c.AliasesApart) {name : Option String} {slot id : TypeId}
    {schema target : Schema} (hstart : (Task.schema name (some slot) schema).Starts c owner s)
    (hshape : schema.shape c = .sameAs target)
    (hrun : Lowers c (.schema none none target) s (.type id) s₁)
    (hfills : Fills c (.schema none none target) s (.type id) s₁) : ¬s₁.Pending id := by
  intro hid
  obtain ⟨component, hdenotes, hlookup⟩ := hfills.type _ _ _ rfl rfl hid
  have hid := (hfills.pending id hid).1
  obtain ⟨whole, ho, _, hnames⟩ := (hstart.slotFor _ _ _ rfl).component target hshape
  obtain ⟨_, ho', hleads⟩ := hstart.waits component ⟨id, hrun.lookup_old hlookup hid.has, hid⟩
  cases ho.symm.trans ho'
  exact hc whole schema component hnames (.sameAs hshape hdenotes) hleads

private theorem rename_none (node : TypeNode) : Lowering.rename none node = node := by
  cases node <;> rfl

private theorem Fits.rename {g : TypeGraph} {slot : String → TypeId → Prop} {schema : Schema}
    {node : TypeNode} (h : Fits c g slot none schema node) (name : Option String) :
    Fits c g slot name schema (Lowering.rename name node) := by
  cases name with
  | none => exact (rename_none node).symm ▸ h
  | some name =>
    induction h with
    | external hname => exact .external hname
    | component hname hlookup hnode hne =>
      rw [rename_none]
      exact .component hname hlookup hnode hne
    | leaf hshape =>
      rw [(Schema.settled_shape hshape).2.2]
      exact .leaf hshape
    | sameAs hshape _ ih => exact .sameAs hshape ih
    | union hshape hlength => exact .union hshape hlength
    | array hshape => exact .array hshape
    | openArray hshape => exact .openArray hshape
    | record hshape hbase hown => exact .record hshape hbase hown

theorem get_place_self {node : TypeNode} {slot : Option TypeId}
    (hslot : ∀ id ∈ slot, s.Has id) :
    (s.place node slot).2.graph.get (s.place node slot).1 = .ok node := by
  cases slot with
  | none => exact LoweringState.get_push_next
  | some slot => exact LoweringState.get_put_self (hslot slot rfl)

private theorem exists_get {id : TypeId} (h : s.Has id) (hid : ¬s.Pending id) :
    ∃ node, s.graph.get id = .ok node ∧ node ≠ .pending := by
  obtain ⟨node, hnode, _⟩ := TypeGraph.get_ok h
  refine ⟨node, hnode, fun heq => hid ?_⟩
  rw [LoweringState.Pending, hnode, heq]

private theorem fits_of_reference {path : String} {id : TypeId}
    (h : Lowers c (.schema none none (.reference path)) s (.type id) s') (hs : s.InRange)
    (hid : ¬s'.Pending id) :
    ∃ node, s'.graph.get id = .ok node ∧ node ≠ .pending ∧
      Fits c s'.graph s'.SlotOf none (.reference path) node := by
  obtain ⟨node, hnode, hne⟩ := exists_get ((h.inRange hs noSlot).2 id List.mem_cons_self) hid
  refine ⟨node, hnode, hne, ?_⟩
  match hname : Reference.localName? path with
  | .error _ =>
    have hcomes : c.ReferenceComesTo path s (.type id) s' := h.comesTo rfl
    simp only [ApiComponents.ReferenceComesTo, hname] at hcomes
  | .ok none =>
    obtain ⟨heq, rfl⟩ := h.of_external hname
    cases heq
    cases hnode.symm.trans LoweringState.get_push_next
    exact .external hname
  | .ok (some component) =>
    obtain ⟨_, heq, hlookup⟩ := h.lookup_reference hname
    cases heq
    exact rename_none node ▸ .component hname hlookup hnode hne

private theorem fits_of_run (h : Lowers c t s o s') (hs : s.InRange)
    (hslot : ∀ id ∈ t.slot?, s.Pending id) {name : Option String} {slot : Option TypeId}
    {schema : Schema} {id : TypeId} (ht : t = .schema name slot schema)
    (hname : slot = none → name = none) (hpath : slot = none ∨ schema.path? = none)
    (ho : o = .type id) (hid : ¬s'.Pending id) :
    ∃ node, s'.graph.get id = .ok node ∧ node ≠ .pending ∧
      Fits c s'.graph s'.SlotOf name schema node := by
  have hids := fun i hi => (hslot i hi).has
  induction h generalizing name slot schema id with
  | external hname' =>
    cases ht
    cases ho
    cases hpath.resolve_right (by rintro ⟨⟩)
    cases hname rfl
    exact fits_of_reference (.external hname') hs hid
  | known hname' hlookup =>
    cases ht
    cases ho
    cases hpath.resolve_right (by rintro ⟨⟩)
    cases hname rfl
    exact fits_of_reference (.known hname' hlookup) hs hid
  | unresolved hname' hnew hresolve =>
    cases ht
    cases ho
    cases hpath.resolve_right (by rintro ⟨⟩)
    cases hname rfl
    exact fits_of_reference (.unresolved hname' hnew hresolve) hs hid
  | entered hname' hnew hresolve hrun =>
    cases ht
    cases ho
    cases hpath.resolve_right (by rintro ⟨⟩)
    cases hname rfl
    exact fits_of_reference (.entered hname' hnew hresolve hrun) hs hid
  | leaf hshape =>
    cases ht
    cases ho
    exact ⟨_, get_place_self hids, (Schema.settled_shape hshape).2.1, .leaf hshape⟩
  | through hshape _ ih =>
    cases ht
    cases ho
    cases hname rfl
    obtain ⟨node, hnode, hne, hfits⟩ := ih hs noSlot rfl (fun _ => rfl) (.inl rfl) rfl hid noSlot
    exact ⟨node, hnode, hne, .sameAs hshape hfits⟩
  | ownSlot _ hrun =>
    cases ht
    cases ho
    exact absurd ((hrun.get_eq (hids _ rfl) (Option.some_ne_none _).symm).trans (hslot _ rfl)) hid
  | @copy name slot _ _ s target node s' hshape hrun _ hnode ih =>
    cases ht
    cases ho
    have hslot' : s'.Pending slot :=
      (hrun.get_eq (hids _ rfl) (Option.some_ne_none _).symm).trans (hslot _ rfl)
    have hput : (s'.put slot (Lowering.rename name node)).graph.get slot =
        .ok (Lowering.rename name node) := LoweringState.get_put_self hslot'.has
    have hne : node ≠ .pending := fun heq => hid (hput.trans (by rw [rename_eq_pending.2 heq]))
    have hfilled : ¬s'.Pending target := fun h => hne (Except.ok.inj (hnode.symm.trans h))
    obtain ⟨_, hnode', _, hfits⟩ := ih hs noSlot rfl (fun _ => rfl) (.inl rfl) rfl hfilled noSlot
    cases hnode.symm.trans hnode'
    refine ⟨_, hput, fun heq => hne (rename_eq_pending.1 heq), .sameAs hshape ?_⟩
    refine (keeps_place (some slot) ?_).fits (hfits.rename name)
    rintro _ ⟨⟩
    exact hslot'
  | union hshape hrun =>
    cases ht
    cases ho
    refine ⟨_, get_place_self fun i hi => hrun.extends.has (hids i hi), (by rintro ⟨⟩), ?_⟩
    exact .union hshape hrun.length_eq
  | array hshape hrun =>
    cases ht
    cases ho
    exact ⟨_, get_place_self fun i hi => hrun.extends.has (hids i hi), (by rintro ⟨⟩), .array hshape⟩
  | openArray hshape =>
    cases ht
    cases ho
    refine ⟨_, get_place_self fun i hi => ?_, (by rintro ⟨⟩), .openArray hshape⟩
    exact (LoweringState.Extends.push _ _).has (hids i hi)
  | reserve hshape _ ih =>
    cases ht
    cases ho
    cases hname rfl
    refine ih (hs.push .pending (List.forall_mem_nil _)) ?_ rfl (by simp) (.inr ?_) rfl hid ?_
    · rintro _ ⟨⟩
      exact LoweringState.get_push_next
    · exact Schema.path?_of_record hshape
    · rintro _ ⟨⟩
      exact LoweringState.InRange.has_next
  | @record _ _ _ base _ _ _ bases _ _ _ _ _ hshape hrun₁ hrun₂ hrun₃ hown =>
    cases ht
    cases ho
    have hext := (hrun₁.extends.trans hrun₂.extends).trans hrun₃.extends
    have hbase : bases.head?.isSome = base.isSome := by
      have hlength := hrun₁.length_eq
      cases base <;> cases bases <;> simp_all
    exact ⟨_, LoweringState.get_put_self (hext.has (hids _ rfl)), (by rintro ⟨⟩), .record hshape hbase hown⟩
  | eachNil | eachCons | membersNil | membersCons => cases ht

/-- While no component is the same as one that leads to it, slots are filled and nothing else is
left pending. -/
theorem Lowers.fills (hc : c.AliasesApart) (h : Lowers c t s o s') (hstart : t.Starts c owner s) :
    Fills c t s o s' := by
  induction h generalizing owner with
  | @external name slot path s hname =>
    obtain rfl := hstart.slot_eq_none
    have hne : TypeNode.unknown ("external reference " ++ path) ≠ .pending :=
      unknown_append_ne_pending (by decide) path
    exact (Settles.refl s).place hstart.slot hne
  | @known name slot path s component id hname hlookup =>
    obtain rfl := hstart.slot_eq_none
    refine ⟨fun id h => ⟨h, Option.not_mem_none _⟩, ?_, fun _ => .inl⟩
    rintro _ _ _ ⟨⟩ ⟨⟩ _
    exact ⟨component, .reference hname, hlookup⟩
  | @unresolved name slot path s component hname hnew hresolve =>
    obtain rfl := hstart.slot_eq_none
    have hne : TypeNode.unknown ("unresolved reference " ++ path) ≠ .pending :=
      unknown_append_ne_pending (by decide) path
    refine ⟨fun id h => ?_, ?_, fun pointer hmem => ?_⟩
    · obtain ⟨h, hid⟩ := pending_put h hne
      exact ⟨pending_of_push h hid, Option.not_mem_none _⟩
    · rintro _ _ _ ⟨⟩ ⟨⟩ h
      exact absurd rfl (pending_put h hne).2
    · rcases List.mem_cons.1 hmem with rfl | hmem
      · exact .inr fun _ _ _ hresolve' => by cases hresolve.symm.trans hresolve'
      · exact .inl hmem
  | @entered name slot path s component target s' hname hnew hresolve hrun ih =>
    obtain rfl := hstart.slot_eq_none
    have hstart' := hstart.enter hname hresolve
    have hfills := ih hstart'
    have hfilled : ¬s'.Pending s.next := fun h => absurd rfl (hfills.pending _ h).2
    refine ⟨fun id h => ?_, ?_, fun pointer hmem => ?_⟩
    · obtain ⟨h, hid⟩ := hfills.pending id h
      exact ⟨pending_of_push h fun heq => hid (Option.mem_some.2 heq.symm), Option.not_mem_none _⟩
    · rintro _ _ _ ⟨⟩ ⟨⟩ h
      exact absurd h hfilled
    · rcases hfills.shaped pointer hmem with hmem | hshaped
      · rcases List.mem_cons.1 hmem with rfl | hmem
        · refine .inr fun name schema hname' hresolve' => ?_
          cases hname.symm.trans hname'
          cases hresolve.symm.trans hresolve'
          exact fits_of_run hrun hstart'.inRange hstart'.slot rfl (by simp)
            (.inr (hstart'.slotFor _ _ _ rfl).path?) rfl hfilled
        · exact .inl hmem
      · exact .inr hshaped
  | leaf hshape =>
    exact (Settles.refl _).place hstart.slot (Schema.settled_shape hshape).2.1
  | @through name schema target s id s' hshape hrun ih =>
    have hfills := ih (hstart.part ⟨rfl, rfl⟩ (Schema.parts_subset hshape))
    refine ⟨hfills.pending, ?_, hfills.shaped⟩
    rintro _ _ _ ⟨⟩ ⟨⟩ h
    obtain ⟨component, hdenotes, hlookup⟩ := hfills.type _ _ _ rfl rfl h
    exact ⟨component, .sameAs hshape hdenotes, hlookup⟩
  | @ownSlot name slot schema target s s' hshape hrun ih =>
    have hfills := ih (hstart.part ⟨rfl, rfl⟩ (Schema.parts_subset hshape))
    have hne := not_pending_of_sameAs hc hstart hshape hrun hfills
    refine ⟨fun id h => ⟨(hfills.pending id h).1, fun heq => hne ?_⟩, (by simp), hfills.shaped⟩
    rwa [Option.mem_some.1 heq]
  | @copy name slot schema target s id node s' hshape hrun _ hnode ih =>
    have hfills := ih (hstart.part ⟨rfl, rfl⟩ (Schema.parts_subset hshape))
    have hne := not_pending_of_sameAs hc hstart hshape hrun hfills
    refine (hfills.settles hrun rfl).place hstart.slot fun heq => hne ?_
    rw [LoweringState.Pending, hnode, rename_eq_pending.1 heq]
  | union hshape hrun ih | array hshape hrun ih =>
    have hfills := ih (hstart.part ⟨rfl, rfl⟩ (Schema.parts_subset hshape))
    exact (hfills.settles hrun rfl).place hstart.slot (by rintro ⟨⟩)
  | openArray hshape =>
    exact (Settles.push _ (Schema.settled_shape hshape)).place hstart.slot (by rintro ⟨⟩)
  | reserve hshape _ ih =>
    have hfills := ih (hstart.reserve hshape)
    refine ⟨fun id h => ?_, ?_, hfills.shaped⟩
    · obtain ⟨h, hid⟩ := hfills.pending id h
      exact ⟨pending_of_push h fun heq => hid (Option.mem_some.2 heq.symm), Option.not_mem_none _⟩
    · rintro _ _ _ ⟨⟩ ⟨⟩ h
      exact absurd rfl (hfills.pending _ h).2
  | @record name slot schema base members properties _ _ _ _ _ _ _ hshape hrun₁ hrun₂ hrun₃ _
      ih₁ ih₂ ih₃ =>
    have hall : (Task.each (base.toList ++ members ++ properties.map (·.2))).Starts c owner _ :=
      hstart.part ⟨rfl, rfl⟩ (Schema.parts_subset hshape)
    have h₁ := (ih₁ (hall.mono ⟨rfl, rfl⟩ Shape.base_subset_parts)).settles hrun₁ rfl
    have hall₁ := hall.after ⟨rfl, rfl⟩ hrun₁ rfl fun id => (h₁.pending id).1
    have h₂ := (ih₂ (hall₁.mono ⟨rfl, rfl⟩ Shape.members_subset_parts)).settles hrun₂ rfl
    have hall₂ := hall₁.after ⟨rfl, rfl⟩ hrun₂ rfl fun id => (h₂.pending id).1
    have h₃ := (ih₃ (hall₂.mono ⟨rfl, rfl⟩ Shape.properties_subset_parts)).settles hrun₃ rfl
    exact ((h₁.trans h₂).trans h₃).place hstart.slot (by rintro ⟨⟩)
  | eachNil | membersNil => exact ⟨fun id h => ⟨h, Option.not_mem_none _⟩, (by simp), fun _ => .inl⟩
  | eachCons hrun₁ hrun₂ ih₁ ih₂ | membersCons hrun₁ _ hrun₂ ih₁ ih₂ =>
    have h₁ := (ih₁ (hstart.mono ⟨rfl, rfl⟩ (by simp [Task.schemas]))).settles hrun₁ rfl
    have hrest := hstart.after ⟨rfl, rfl⟩ hrun₁ rfl fun id => (h₁.pending id).1
    have h₂ := h₁.trans ((ih₂ (hrest.mono ⟨rfl, rfl⟩ (by simp [Task.schemas]))).settles hrun₂ rfl)
    exact ⟨fun id h => ⟨(h₂.pending id).1 h, Option.not_mem_none _⟩, (by simp), h₂.shaped⟩

end RequestDocs.OpenApi
