import RequestDocs.Proofs.Realizations
/-!
# Runs that give types

While copies are complete, what a task comes to has the types of its schemas as the components give
them. This does not depend on what was lowered before.
-/

namespace RequestDocs.OpenApi

open Relation

variable {c : ApiComponents} {t : Task} {o : Outcome} {s s' : LoweringState} {owner : Option String}

/-- Components have ids of their own, and all that are not pending have the nodes they stand for, but
for one at a slot. -/
structure LoweringState.Knit (c : ApiComponents) (slot : Option TypeId) (s : LoweringState) :
    Prop where
  separate : s.Separate
  typed : ∀ component id, s.SlotOf component id → ¬s.Pending id → id ∉ slot → s.Typed c component id

def Task.Realized (c : ApiComponents) (s : LoweringState) : Task → Outcome → Prop
  | .schema _ none only, .type id => Realizes c s (.type only) id
  | .schema name (some slot) only, .type _ =>
    ∃ final, Stands c only final ∧ Realizes c s (.node name final) slot
  | .each all, .types ids => List.Forall₂ (fun schema id => Realizes c s (.type schema) id) all ids
  | .members all, .fields fields =>
    ∃ entries, Fields c (.members all) entries ∧ RealizesFields c s entries fields
  | _, _ => False

/-- No member that fields are copied from draws from a component that leads to the owner. -/
def Task.Apart (c : ApiComponents) (owner : Option String) : Task → Prop
  | .members all => ∀ component ∈ owner, ∀ member ∈ all, ∀ name, Draws c member name →
    ¬ReflTransGen c.Leads name component
  | _ => True

namespace LoweringState.Knit

theorem initial : LoweringState.initial.Knit c none where
  separate _ _ _ hslot := by cases hslot
  typed _ _ hslot := by cases hslot

private theorem place (h : s.Knit c none) (node : TypeNode) {slot : Option TypeId}
    (hslot : ∀ id ∈ slot, s.Pending id) : (s.place node slot).2.Knit c slot where
  separate component component' id hid hid' := by
    rw [SlotOf, place_components] at hid hid'
    exact h.separate component component' id hid hid'
  typed component id hid hpending hne := by
    rw [SlotOf, place_components] at hid
    refine (h.typed component id hid (fun hold => hpending ?_) (by simp)).grows (.place hslot)
    cases slot with
    | none => exact (get_push hold.has).trans hold
    | some slot => exact (get_put_of_ne fun heq => hne (Option.mem_some.2 heq.symm)).trans hold

private theorem put (h : s.Knit c none) (node : TypeNode) {slot : TypeId} (hslot : s.Pending slot) :
    (s.put slot node).Knit c (some slot) :=
  h.place node fun id hid => by rwa [← Option.mem_some.1 hid]

theorem push (h : s.Knit c none) (node : TypeNode) : (s.push node).Knit c none :=
  h.place node nofun

private theorem enter (h : s.Knit c none) (hs : s.InRange) {name path : String}
    (hnew : s.components.lookup name = none) : (s.enter name path).Knit c none where
  separate component component' id hid hid' := by
    rcases lookup_enter hid with ⟨rfl, rfl⟩ | ⟨_, hid⟩
    · rcases lookup_enter hid' with ⟨rfl, _⟩ | ⟨_, hid'⟩
      · rfl
      · exact absurd rfl (ne_next_of_has (hs.lookup hid'))
    · rcases lookup_enter hid' with ⟨_, rfl⟩ | ⟨_, hid'⟩
      · exact absurd rfl (ne_next_of_has (hs.lookup hid))
      · exact h.separate component component' id hid hid'
  typed component id hid hpending _ := by
    rcases lookup_enter hid with ⟨_, rfl⟩ | ⟨_, hid⟩
    · exact absurd get_push_next hpending
    · refine (h.typed component id hid (fun hold => hpending ?_) nofun).grows (.enter hnew path)
      exact (get_push hold.has).trans hold

private theorem fill {slot : TypeId} (h : s.Knit c (some slot))
    (hslot : ∀ component, s.SlotOf component slot → s.Typed c component slot) : s.Knit c none where
  separate := h.separate
  typed component id hid hpending _ := by
    by_cases heq : id = slot
    · subst heq
      exact hslot component hid
    · exact h.typed component id hid hpending fun hmem => heq (Option.mem_some.1 hmem).symm

end LoweringState.Knit

/-- A task at its start that refers to schemas only, in a state whose components have their types. -/
structure Task.Ready (c : ApiComponents) (owner : Option String) (s : LoweringState) (t : Task) :
    Prop where
  starts : t.Starts c owner s
  regular : t.Regular c
  knit : s.Knit c none

namespace Task.Ready

variable {t' : Task} {name : Option String} {slot : Option TypeId} {schema : Schema}

theorem part (h : (Task.schema name slot schema).Ready c owner s) (hfree : t'.Free)
    (hparts : t'.schemas ⊆ (schema.shape c).parts) : t'.Ready c owner s :=
  ⟨h.starts.part hfree hparts, h.regular.part hparts, h.knit⟩

theorem mono (h : t.Ready c owner s) (hfree : t'.Free) (hsub : t'.schemas ⊆ t.schemas) :
    t'.Ready c owner s :=
  ⟨h.starts.mono hfree hsub, h.regular.mono hsub, h.knit⟩

theorem after (hc : c.CopiesApart) (h : t.Ready c owner s) (hfree : t.Free)
    (hrun : Lowers c t' s o s') (hfree' : t'.Free) (hsub : t'.schemas ⊆ t.schemas)
    (hs' : s'.Knit c none) : t.Ready c owner s' :=
  have hfills := hrun.fills hc.aliases (h.starts.mono hfree' hsub)
  ⟨h.starts.after hfree hrun hfree'.2 fun id hid => (hfills.pending id hid).1, h.regular, hs'⟩

end Task.Ready

private theorem realized_of_node {name : Option String} {slot : Option TypeId} {schema : Schema}
    {id : TypeId} (hstart : (Task.schema name slot schema).Starts c owner s)
    (hpath : schema.path? = none) (hshape : ∀ target, schema.shape c ≠ .sameAs target)
    (hnode : Realizes c s' (.node name schema) id) (hid : ∀ slot' ∈ slot, slot' = id) :
    (Task.schema name slot schema).Realized c s' (.type id) := by
  cases slot with
  | none =>
    obtain rfl : name = none := (hstart.free rfl).1
    exact Realizes.own (.own hpath hshape) (not_denotes_of_own hpath hshape) hnode
  | some slot =>
    obtain rfl := hid slot rfl
    exact ⟨schema, .own hpath hshape, hnode⟩

private theorem placed {s₁ : LoweringState} {name : Option String} {slot : Option TypeId}
    {schema : Schema} {shape : Shape} {node : TypeNode}
    (hstart : (Task.schema name slot schema).Starts c owner s) (hs₁ : s₁.Knit c none)
    (hslot : ∀ id ∈ slot, s₁.Pending id) (hshape : schema.shape c = shape)
    (hreference : ∀ path, shape ≠ .reference path) (hsame : ∀ target, shape ≠ .sameAs target)
    (hnode : Realizes c (s₁.place node slot).2 (.node name schema) (s₁.place node slot).1) :
    (s₁.place node slot).2.Knit c slot ∧ (Task.schema name slot schema).Realized c
      (s₁.place node slot).2 (.type (s₁.place node slot).1) := by
  refine ⟨hs₁.place node hslot, realized_of_node hstart ?_ (hshape ▸ hsame) hnode ?_⟩
  · cases schema with
    | reference path => exact absurd hshape.symm (hreference path)
    | object => rfl
  · rintro _ ⟨⟩
    rfl

private theorem Realizes.rename {name : Option String} {component : String} {final : Schema}
    {id slot : TypeId} {node : TypeNode} (h : Realizes c s (.node name final) id)
    (hnode : s.graph.get id = .ok node)
    (hslot : s.graph.get slot = .ok (Lowering.rename (some component) node))
    (hkey : s.SlotOf component slot) : Realizes c s (.node (some component) final) slot := by
  cases h with
  | external hname hget =>
    cases hget.symm.trans hnode
    exact .external hname hslot
  | unresolved hname hget =>
    cases hget.symm.trans hnode
    exact .unresolved hname hslot
  | leaf hshape hget =>
    cases hget.symm.trans hnode
    rw [(Schema.settled_shape hshape).2.2] at hslot
    exact .leaf hshape hslot
  | union hshape hget hlength hids =>
    cases hget.symm.trans hnode
    exact .union hshape hslot hlength hids
  | array hshape hget helement =>
    cases hget.symm.trans hnode
    exact .array hshape hslot helement
  | openArray hshape hget helement =>
    cases hget.symm.trans hnode
    exact .openArray hshape hslot helement
  | record hshape hget _ hlength hbase hcopied hlength' hnames hfields =>
    cases hget.symm.trans hnode
    exact .record hshape hslot hkey hlength hbase hcopied hlength' hnames hfields

private theorem realizes_record {name : Option String} {schema : Schema} {base : Option Schema}
    {members : List Schema} {properties copied : List (String × Schema)} {bases : List TypeId}
    {fields : List Field} {id : TypeId} (hshape : schema.shape c = .record base members properties)
    (hnode : s.graph.get id = .ok (.record name bases.head? fields))
    (hkey : Keyed (s.SlotOf · id) name)
    (hbases : List.Forall₂ (fun schema id => Realizes c s (.type schema) id) base.toList bases)
    (hcopied : Fields c (.members members) copied)
    (hfields : RealizesFields c s (copied ++ properties) fields) :
    Realizes c s (.node name schema) id := by
  have hhead : bases.head?.toList = bases := by
    have hlength := hbases.length_eq
    match base, bases with
    | none, [] | some _, [_] => rfl
    | none, _ :: _ | some _, [] | some _, _ :: _ :: _ => simp at hlength
  rw [← hhead] at hbases
  obtain ⟨hlength, hfields⟩ := List.forall₂_iff_zip.1 hfields
  exact .record hshape hnode hkey hbases.length_eq
    (fun _ hmem => (List.forall₂_iff_zip.1 hbases).2 hmem) hcopied hlength
    (fun _ hmem => (hfields hmem).1) fun _ hmem => (hfields hmem).2

private theorem realizesFields_of_types {properties : List (String × Schema)} {own : List Field}
    (hnames : own.map (·.name) = properties.map (·.1))
    (htypes : List.Forall₂ (fun schema id => Realizes c s (.type schema) id) (properties.map (·.2))
      (own.map (·.type))) : RealizesFields c s properties own := by
  induction properties generalizing own with
  | nil =>
    obtain rfl : own = [] := by simpa using hnames
    exact .nil
  | cons property properties ih =>
    cases own with
    | nil => cases hnames
    | cons field own =>
      obtain ⟨hname, hnames⟩ := List.cons_eq_cons.1 hnames
      obtain ⟨htype, htypes⟩ := List.forall₂_cons.1 htypes
      exact .cons ⟨hname, htype⟩ (ih hnames htypes)

/-- The fields that are copied from a member are its own and inherited ones, whatever its owner waits
for. -/
private theorem exists_fields_of_member {member : Schema} {id : TypeId} {copied : List Field}
    (hs : s.Knit c none) (hstart : t.Starts c owner s) (htype : Realizes c s (.type member) id)
    (hdraws : ∀ component ∈ owner, ∀ name, Draws c member name →
      ¬ReflTransGen c.Leads name component)
    (hcopied : s.graph.allFields id = .ok copied) :
    ∃ name final entries, Keyed (Denotes c member) name ∧ Stands c member final ∧
      Fields c (.all name.toList final) entries ∧ RealizesFields c s entries copied := by
  have hsupplies : s.Supplies c fun name => ∀ whole ∈ owner, ¬ReflTransGen c.Leads name whole := by
    refine ⟨hs.separate, fun component i hslot => ?_, fun component i hp hslot hpending => ?_,
      fun _ _ hp h whole ho h' => hp whole ho (h'.head h)⟩
    · exact or_iff_not_imp_left.2 fun hpending => hs.typed component i hslot hpending nofun
    · obtain ⟨whole, ho, hleads⟩ := hstart.waits component ⟨i, hslot, hpending⟩
      exact hp whole ho hleads
  have hdraws' (component : String) (h : Draws c member component) :
      ∀ whole ∈ owner, ¬ReflTransGen c.Leads component whole :=
    fun whole ho => hdraws whole ho component h
  by_cases hpending : ∃ component, Denotes c member component ∧ s.SlotOf component id ∧ s.Pending id
  · -- A member that is still pending has no fields, now or later.
    obtain ⟨component, hdenotes, hslot, hpending⟩ := hpending
    rw [allFields_of_not_record hpending rfl hcopied]
    rcases hdenotes.draws_or with hdraws | ⟨final, hstands, hfinal⟩
    · exact absurd hpending (hsupplies.filled component id (hdraws' component hdraws) hslot)
    · exact ⟨some component, final, [], hdenotes, hstands, .other hfinal, .nil⟩
  · obtain ⟨name, final, hkey, hstands, hnode⟩ := htype.node_of_type fun component hdenotes hslot =>
      (hsupplies.known component id hslot).resolve_left fun h =>
        hpending ⟨component, hdenotes, hslot, h⟩
    obtain ⟨entries, hentries, hfields⟩ :=
      hnode.allFields hsupplies (hstands.draws hsupplies.leads hdraws') hcopied
    exact ⟨name, final, entries, hkey, hstands, hentries, hfields⟩

private theorem pending_of_free {slot : Option TypeId} (hrun : Lowers c t s o s') (ht : t.slot? = none)
    (hslot : ∀ id ∈ slot, s.Pending id) : ∀ id ∈ slot, s'.Pending id := fun id hid =>
  (hrun.get_eq (hslot id hid).has (by simp [ht])).trans (hslot id hid)

private theorem realized_component {name : Option String} {path component : String} {id : TypeId}
    (hs : s.Knit c (some id)) (hname : Reference.localName? path = .ok (some component))
    (hkind : Reference.PointsToSchema path) (hslot : s.SlotOf component id)
    (htyped : s.Typed c component id) :
    s.Knit c none ∧ (Task.schema name none (.reference path)).Realized c s (.type id) := by
  refine ⟨hs.fill fun component' hslot' => ?_, .component hname hkind hslot⟩
  obtain rfl := hs.separate component' component id hslot' hslot
  exact htyped

private theorem realized_copy (hc : c.CopiesApart) {name : Option String} {slot id : TypeId}
    {schema target : Schema} {node : TypeNode}
    (hready : (Task.schema name (some slot) schema).Ready c owner s)
    (hshape : schema.shape c = .sameAs target)
    (hrun : Lowers c (.schema none none target) s (.type id) s') (hne : slot ≠ id)
    (hnode : s'.graph.get id = .ok node) (hs' : s'.Knit c none)
    (htype : Realizes c s' (.type target) id) :
    (s'.put slot (Lowering.rename name node)).Knit c (some slot) ∧
      (Task.schema name (some slot) schema).Realized c (s'.put slot (Lowering.rename name node))
        (.type slot) := by
  have hstart := hready.starts
  have hfills := hrun.fills hc.aliases
    (hstart.part ⟨rfl, rfl⟩ (Schema.parts_subset hshape))
  have hfilled := not_pending_of_sameAs hc.aliases hstart hshape hrun hfills
  have hslot := pending_of_free hrun rfl hstart.slot slot rfl
  obtain ⟨component, _, rfl, _⟩ := (hstart.slotFor _ _ _ rfl).component target hshape
  obtain ⟨name', final, _, hstands, hnode'⟩ := htype.node_of_type fun component' _ hslot' =>
    hs'.typed component' id hslot' hfilled (Option.not_mem_none _)
  refine ⟨hs'.put _ hslot, final, .sameAs hshape hstands, ?_⟩
  refine Realizes.rename (hnode'.grows (.put hslot)) ?_ (LoweringState.get_put_self hslot.has) ?_
  · exact (LoweringState.get_put_of_ne hne.symm).trans hnode
  · exact hrun.extends.lookup _ _ (hstart.slotFor _ _ _ rfl).keyed

private theorem realized_record {name : Option String} {slot : TypeId} {schema : Schema}
    {base : Option Schema} {members : List Schema} {properties entries : List (String × Schema)}
    {bases : List TypeId} {copied own : List Field}
    (hshape : schema.shape c = .record base members properties) (hs : s.Knit c none)
    (hslot : s.Pending slot) (hkey : Keyed (s.SlotOf · slot) name)
    (hbases : List.Forall₂ (fun schema id => Realizes c s (.type schema) id) base.toList bases)
    (hentries : Fields c (.members members) entries) (hcopied : RealizesFields c s entries copied)
    (hnames : own.map (·.name) = properties.map (·.1))
    (hown : List.Forall₂ (fun schema id => Realizes c s (.type schema) id) (properties.map (·.2))
      (own.map (·.type))) :
    (s.put slot (.record name bases.head? (copied ++ own))).Knit c (some slot) ∧
      (Task.schema name (some slot) schema).Realized c
        (s.put slot (.record name bases.head? (copied ++ own))) (.type slot) := by
  have hfields := List.rel_append hcopied (realizesFields_of_types hnames hown)
  refine ⟨hs.put _ hslot, schema, .own (Schema.path?_of_record hshape) (by simp [hshape]), ?_⟩
  refine realizes_record hshape (LoweringState.get_put_self hslot.has) hkey ?_ hentries ?_
  · exact hbases.imp fun _ _ h => h.grows (.put hslot)
  · exact RealizesFields.grows hfields (.put hslot)

/-- While copies are complete, tasks come to the types of their schemas. -/
theorem Lowers.realizes (hc : c.CopiesApart)
    (hkind : ∀ path ∈ c.schemaReferences, Reference.PointsToSchema path) (h : Lowers c t s o s')
    (hready : t.Ready c owner s) (hapart : t.Apart c owner) :
    s'.Knit c t.slot? ∧ t.Realized c s' o := by
  induction h generalizing owner with
  | @external name slot path s hname =>
    obtain rfl := hready.starts.slot_eq_none
    have hmissing : c.Missing path := fun name schema hname' => by cases hname.symm.trans hname'
    refine ⟨hready.knit.push _, .own (.missing hmissing) (fun component h => ?_) ?_⟩
    · cases h with
      | reference hname' => cases hname.symm.trans hname'
      | sameAs hshape => cases hshape
    · exact .external hname LoweringState.get_push_next
  | @known name slot path s component id hname hlookup =>
    obtain rfl := hready.starts.slot_eq_none
    exact ⟨hready.knit, .component hname hready.regular.reference hlookup⟩
  | @unresolved name slot path s component hname hnew hresolve =>
    obtain rfl := hready.starts.slot_eq_none
    have hkind' := hready.regular.reference
    have hmissing : c.Missing path := fun name schema hname' hnames => by
      cases hresolve.symm.trans (hnames.resolve hkind' hname')
    have hentered : (s.enter component path).Knit c none :=
      hready.knit.enter hready.starts.inRange hnew
    have hknit := hentered.put (.unknown ("unresolved reference " ++ path))
      LoweringState.get_push_next
    refine realized_component hknit hname hkind' LoweringState.lookup_enter_self ?_
    refine ⟨path, .reference path, hname, hkind', .missing hmissing, .unresolved hname ?_⟩
    exact LoweringState.get_put_self LoweringState.InRange.has_next
  | @entered name slot path s component target s' hname hnew hresolve hrun ih =>
    obtain rfl := hready.starts.slot_eq_none
    -- The schema of the component is lowered at its new id, with the component as the owner.
    obtain ⟨hknit, final, hstands, hnode⟩ := ih ⟨hready.starts.enter hname hresolve,
      .of_resolve hkind hresolve, hready.knit.enter hready.starts.inRange hnew⟩ trivial
    have hstands := Stands.component hname ⟨path, hname, hresolve⟩ hstands
    exact realized_component hknit hname hready.regular.reference
      (hrun.extends.lookup _ _ LoweringState.lookup_enter_self)
      ⟨path, final, hname, hready.regular.reference, hstands, hnode⟩
  | @leaf name slot schema node s hshape =>
    refine placed hready.starts hready.knit hready.starts.slot hshape (by simp) (by simp)
      (.leaf hshape ?_)
    exact get_place_self fun id hid => (hready.starts.slot id hid).has
  | @through name schema target s id s' hshape hrun ih =>
    obtain ⟨hknit, htype⟩ := ih
      (hready.part ⟨rfl, rfl⟩ (Schema.parts_subset hshape)) trivial
    exact ⟨hknit, .sameAs hshape htype⟩
  | @ownSlot name slot schema target s s' hshape hrun ih =>
    -- The slot would have a node by then, but only its own task gives it one.
    have hfills := hrun.fills hc.aliases
      (hready.starts.part ⟨rfl, rfl⟩ (Schema.parts_subset hshape))
    refine absurd ?_ (not_pending_of_sameAs hc.aliases hready.starts hshape hrun hfills)
    exact pending_of_free hrun rfl hready.starts.slot slot rfl
  | @copy name slot schema target s id node s' hshape hrun hne hnode ih =>
    obtain ⟨hknit, htype⟩ := ih
      (hready.part ⟨rfl, rfl⟩ (Schema.parts_subset hshape)) trivial
    exact realized_copy hc hready hshape hrun hne hnode hknit htype
  | union hshape hrun ih =>
    obtain ⟨hknit, hids⟩ := ih
      (hready.part ⟨rfl, rfl⟩ (Schema.parts_subset hshape)) trivial
    have hslot := pending_of_free hrun rfl hready.starts.slot
    refine placed hready.starts hknit hslot hshape (by simp) (by simp)
      (.union hshape (get_place_self ?_) hids.length_eq ?_)
    · exact fun id hid => (hslot id hid).has
    · exact fun entry hmem => ((List.forall₂_iff_zip.1 hids).2 hmem).grows (.place hslot)
  | array hshape hrun ih =>
    obtain ⟨hknit, helement⟩ := ih
      (hready.part ⟨rfl, rfl⟩ (Schema.parts_subset hshape)) trivial
    have hslot := pending_of_free hrun rfl hready.starts.slot
    refine placed hready.starts hknit hslot hshape (by simp) (by simp)
      (.array hshape (get_place_self ?_) ?_)
    · exact fun id hid => (hslot id hid).has
    · exact Realizes.grows helement (.place hslot)
  | @openArray name slot schema kind s hshape =>
    have hslot (id : TypeId) (hid : id ∈ slot) : (s.push (.unknown kind)).Pending id :=
      have hpending := hready.starts.slot id hid
      (LoweringState.get_push hpending.has).trans hpending
    refine placed hready.starts (hready.knit.push _) hslot hshape (by simp) (by simp)
      (.openArray hshape (get_place_self ?_) ?_)
    · exact fun id hid => (hslot id hid).has
    · exact (keeps_place slot hslot).get _ _ LoweringState.get_push_next
        (Schema.settled_shape hshape)
  | @reserve name schema base members properties s s' hshape hrun ih =>
    obtain rfl : name = none := (hready.starts.free rfl).1
    have hreserved := hready.starts.reserve hshape
    obtain ⟨hknit, final, hstands, hnode⟩ := ih ⟨hreserved, hready.regular, hready.knit.push _⟩
      trivial
    have hown : Stands c schema schema := .own (Schema.path?_of_record hshape) (by simp [hshape])
    obtain rfl := hstands.unique hown
    -- The new id belongs to no component, so no component waits for its node.
    have hkey (component : String) : ¬s'.SlotOf component s.next := fun hslot =>
      (hreserved.slotFor _ _ _ rfl).keyed component
        (hrun.lookup_old hslot LoweringState.InRange.has_next)
    refine ⟨hknit.fill fun component hslot => absurd hslot (hkey component), ?_⟩
    exact Realizes.own hown
      (not_denotes_of_own (Schema.path?_of_record hshape) (by simp [hshape])) hnode
  | @record name slot schema base members properties s bases s₁ copied s₂ own s₃ hshape hrun₁ hrun₂
      hrun₃ hnames ih₁ ih₂ ih₃ =>
    have hall : (Task.each (base.toList ++ members ++ properties.map (·.2))).Ready c owner s :=
      hready.part ⟨rfl, rfl⟩ (Schema.parts_subset hshape)
    obtain ⟨hknit₁, hbases⟩ := ih₁ (hall.mono ⟨rfl, rfl⟩ Shape.base_subset_parts) trivial
    have hall₁ := hall.after hc ⟨rfl, rfl⟩ hrun₁ ⟨rfl, rfl⟩ Shape.base_subset_parts hknit₁
    obtain ⟨hknit₂, entries, hentries, hcopied⟩ :=
      ih₂ (hall₁.mono ⟨rfl, rfl⟩ Shape.members_subset_parts)
      fun component ho member hmem name => hc.members component schema base members properties
        (hready.starts.parts component ho schema List.mem_cons_self) hshape member hmem name
    have hall₂ := hall₁.after hc ⟨rfl, rfl⟩ hrun₂ ⟨rfl, rfl⟩ Shape.members_subset_parts hknit₂
    obtain ⟨hknit₃, hown⟩ := ih₃ (hall₂.mono ⟨rfl, rfl⟩ Shape.properties_subset_parts) trivial
    -- What was found for the first parts still holds once the last ones have been lowered.
    have hgrows₂ := hrun₂.grows noSlot
    have hgrows₃ := hrun₃.grows noSlot
    have hslot : s₃.Pending slot := pending_of_free hrun₃ rfl (pending_of_free hrun₂ rfl
      (pending_of_free hrun₁ rfl hready.starts.slot)) slot rfl
    have hkey := (((hrun₁.grows noSlot).trans hgrows₂).trans hgrows₃).keyed
      (hready.starts.slot slot rfl).has (hready.starts.slotFor _ _ _ rfl).keyed
    exact realized_record hshape hknit₃ hslot hkey
      (hbases.imp fun _ _ h => (Realizes.grows h hgrows₂).grows hgrows₃) hentries
      (hcopied.grows hgrows₃) hnames hown
  | eachNil => exact ⟨hready.knit, .nil⟩
  | membersNil => exact ⟨hready.knit, [], .membersNil, .nil⟩
  | @eachCons schema schemas s id s₁ ids s₂ hrun₁ hrun₂ ih₁ ih₂ =>
    have hfirst : (Task.schema none none schema).schemas ⊆ (Task.each (schema :: schemas)).schemas :=
      by simp [Task.schemas]
    obtain ⟨hknit₁, htype⟩ := ih₁ (hready.mono ⟨rfl, rfl⟩ hfirst) trivial
    have hrest := hready.after hc ⟨rfl, rfl⟩ hrun₁ ⟨rfl, rfl⟩ hfirst hknit₁
    obtain ⟨hknit₂, htypes⟩ := ih₂ (hrest.mono ⟨rfl, rfl⟩ (by simp [Task.schemas])) trivial
    exact ⟨hknit₂, .cons (Realizes.grows htype (hrun₂.grows noSlot)) htypes⟩
  | @membersCons member members s id s₁ copied rest s₂ hrun₁ hcopied hrun₂ ih₁ ih₂ =>
    have hfirst : (Task.schema none none member).schemas ⊆ (Task.members (member :: members)).schemas :=
      by simp [Task.schemas]
    obtain ⟨hknit₁, htype⟩ := ih₁ (hready.mono ⟨rfl, rfl⟩ hfirst) trivial
    have hrest := hready.after hc ⟨rfl, rfl⟩ hrun₁ ⟨rfl, rfl⟩ hfirst hknit₁
    obtain ⟨hknit₂, entries', hentries', hfields'⟩ := ih₂
      (hrest.mono ⟨rfl, rfl⟩ (by simp [Task.schemas]))
      fun component ho member' hmem => hapart component ho member' (List.mem_cons_of_mem _ hmem)
    obtain ⟨name, final, entries, hkey, hstands, hentries, hfields⟩ :=
      exists_fields_of_member hknit₁ hrest.starts htype
        (fun component ho => hapart component ho member List.mem_cons_self) hcopied
    refine ⟨hknit₂, entries ++ entries', .membersCons hkey hstands hentries hentries', ?_⟩
    exact List.rel_append (hfields.grows (hrun₂.grows noSlot)) hfields'

end RequestDocs.OpenApi
