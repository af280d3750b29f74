import RequestDocs.Proofs.Following
/-!
# Components that wait

A component has a pending node while its schema is lowered. Of the components that are pending while
a task runs, each leads to the one that the schemas of the task are part of.
-/

namespace RequestDocs.OpenApi

open Relation

variable {c : ApiComponents} {t t' : Task} {o : Outcome} {s s' s₁ : LoweringState}
  {owner : Option String}

def LoweringState.Pending (s : LoweringState) (id : TypeId) : Prop :=
  s.graph.get id = .ok .pending

theorem LoweringState.Pending.has {id : TypeId} (h : s.Pending id) : s.Has id :=
  TypeGraph.has_of_get h

theorem unknown_append_ne_pending {lead : String} (h : 7 < lead.length) (path : String) :
    TypeNode.unknown (lead ++ path) ≠ .pending := by
  intro heq
  have hlength := congrArg String.length (TypeNode.unknown.inj heq)
  rw [String.length_append] at hlength
  have : "pending".length = 7 := rfl
  omega

theorem rename_eq_pending {name : Option String} {node : TypeNode} :
    Lowering.rename name node = .pending ↔ node = .pending := by
  unfold Lowering.rename
  split <;> simp [TypeNode.pending]

theorem pending_push {node : TypeNode} {id : TypeId} (h : (s.push node).Pending id) :
    s.Pending id ∨ id = s.next ∧ node = .pending := by
  by_cases hid : s.Has id
  · exact .inl ((LoweringState.get_push hid).symm.trans h)
  · have hlt : id.index < s.graph.size + 1 := by simpa [LoweringState.Has, TypeGraph.Has] using h.has
    obtain rfl : id = s.next := by
      cases id
      simp only [LoweringState.Has, TypeGraph.Has, LoweringState.next, TypeId.mk.injEq] at hid hlt ⊢
      omega
    exact .inr ⟨rfl, Except.ok.inj (LoweringState.get_push_next.symm.trans h)⟩

theorem pending_of_push {node : TypeNode} {id : TypeId} (h : (s.push node).Pending id)
    (hne : id ≠ s.next) : s.Pending id :=
  (pending_push h).resolve_right fun heq => hne heq.1

theorem pending_put {node : TypeNode} {slot id : TypeId} (h : (s.put slot node).Pending id)
    (hne : node ≠ .pending) : s.Pending id ∧ id ≠ slot := by
  by_cases heq : id = slot
  · subst heq
    have hid : s.Has id := by simpa [LoweringState.Has, TypeGraph.Has] using h.has
    exact absurd (Except.ok.inj ((LoweringState.get_put_self hid).symm.trans h)) hne
  · exact ⟨(LoweringState.get_put_of_ne heq).symm.trans h, heq⟩

structure LoweringState.Keeps (s s' : LoweringState) : Prop extends s.Extends s' where
  get : ∀ id node, s.graph.get id = .ok node → node ≠ .pending → s'.graph.get id = .ok node

theorem keeps_place {node : TypeNode} (slot : Option TypeId)
    (hslot : ∀ id ∈ slot, s.Pending id) : s.Keeps (s.place node slot).2 := by
  refine ⟨.place s node slot, fun id node' hnode hne => ?_⟩
  cases slot with
  | none => exact (LoweringState.get_push (TypeGraph.has_of_get hnode)).trans hnode
  | some slot =>
    refine (LoweringState.get_put_of_ne fun heq => hne ?_).trans hnode
    subst heq
    exact Except.ok.inj (hnode.symm.trans (hslot id rfl))

/-- A task whose slot is pending keeps all nodes that are not. -/
theorem Lowers.keeps (h : Lowers c t s o s') (hslot : ∀ id ∈ t.slot?, s.Pending id) :
    s.Keeps s' := by
  refine ⟨h.extends, fun id node hnode hne => ?_⟩
  refine (h.get_eq (TypeGraph.has_of_get hnode) fun heq => hne ?_).trans hnode
  exact Except.ok.inj (hnode.symm.trans (hslot id heq))

/-- The schema of a component, or a part of it that is reached without references. -/
inductive ApiComponents.PartOf (c : ApiComponents) (component : String) : Schema → Prop
  | whole {schema} : c.Names component schema → c.PartOf component schema
  | part {schema part} : c.PartOf component schema → part ∈ (schema.shape c).parts →
      c.PartOf component part

theorem ApiComponents.PartOf.leads {component name path : String} {schema : Schema}
    (h : c.PartOf component schema) (hfollows : Follows c schema path)
    (hname : Reference.localName? path = .ok (some name)) : c.Leads component name := by
  induction h with
  | whole hnames => exact ⟨_, path, hnames, hfollows, hname⟩
  | part _ hmem ih => exact ih (.part hmem hfollows)

/-- A component waits: it is known, but pending. -/
def LoweringState.Waits (s : LoweringState) (name : String) : Prop :=
  ∃ id, s.SlotOf name id ∧ s.Pending id

def Keyed (p : String → Prop) : Option String → Prop
  | some component => p component
  | none => ∀ component, ¬p component

/-- The slot of a schema is the one of its name. A schema that is the same as another one has a slot
only if it is a component. -/
structure LoweringState.SlotFor (c : ApiComponents) (owner : Option String) (s : LoweringState)
    (name : Option String) (slot : TypeId) (schema : Schema) : Prop where
  path? : schema.path? = none
  keyed : Keyed (s.SlotOf · slot) name
  component : ∀ target, schema.shape c = .sameAs target →
    ∃ component ∈ owner, name = some component ∧ c.Names component schema

def Task.name? : Task → Option String
  | schema name _ _ => name
  | each _ => none
  | members _ => none

def Task.Free (t : Task) : Prop := t.name? = none ∧ t.slot? = none

/-- A task at its start, in the schema of a component or outside: its slot is pending, and the
components that wait lead to the one it is in. -/
structure Task.Starts (c : ApiComponents) (owner : Option String) (s : LoweringState) (t : Task) :
    Prop where
  inRange : s.InRange
  slot : ∀ id ∈ t.slot?, s.Pending id
  waits : ∀ name, s.Waits name → ∃ component ∈ owner, ReflTransGen c.Leads name component
  parts : ∀ component ∈ owner, ∀ schema ∈ t.schemas, c.PartOf component schema
  free : t.slot? = none → t.Free
  slotFor : ∀ name slot schema, t = .schema name (some slot) schema →
    s.SlotFor c owner name slot schema

namespace Task.Starts

/-- A free task starts where less waits. -/
private theorem next (h : t.Starts c owner s) (hfree : t'.Free)
    (hparts : ∀ component ∈ owner, ∀ schema ∈ t'.schemas, c.PartOf component schema)
    (hs₁ : s₁.InRange) (hpending : ∀ id, s₁.Pending id → s.Pending id)
    (hold : ∀ name id, s₁.SlotOf name id → s.Has id → s.SlotOf name id) :
    t'.Starts c owner s₁ where
  inRange := hs₁
  slot id hid := by
    rw [hfree.2] at hid
    cases hid
  waits name hw := by
    obtain ⟨id, hlookup, hid⟩ := hw
    have hid := hpending id hid
    exact h.waits name ⟨id, hold name id hlookup hid.has, hid⟩
  parts := hparts
  free _ := hfree
  slotFor name slot schema heq := by
    subst heq
    cases hfree.2

theorem part {name : Option String} {slot : Option TypeId} {schema : Schema}
    (h : (Task.schema name slot schema).Starts c owner s) (hfree : t'.Free)
    (hparts : t'.schemas ⊆ (schema.shape c).parts) : t'.Starts c owner s :=
  h.next hfree (fun component ho _ hmem =>
      .part (h.parts component ho schema List.mem_cons_self) (hparts hmem))
    h.inRange (fun _ h => h) fun _ _ h _ => h

theorem mono (h : t.Starts c owner s) (hfree : t'.Free) (hsub : t'.schemas ⊆ t.schemas) :
    t'.Starts c owner s :=
  h.next hfree (fun component ho schema hmem => h.parts component ho schema (hsub hmem))
    h.inRange (fun _ h => h) fun _ _ h _ => h

theorem after (h : t.Starts c owner s) (hfree : t.Free) (hrun : Lowers c t' s o s₁)
    (hslot' : t'.slot? = none) (hpending : ∀ id, s₁.Pending id → s.Pending id) :
    t.Starts c owner s₁ :=
  h.next hfree h.parts (hrun.inRange h.inRange (by simp [hslot'])).1 hpending
    fun _ _ => hrun.lookup_old

theorem slot_eq_none {name : Option String} {slot : Option TypeId} {path : String}
    (h : (Task.schema name slot (.reference path)).Starts c owner s) : slot = none := by
  cases slot with
  | none => rfl
  | some slot => cases (h.slotFor _ _ _ rfl).path?

theorem enter {name : Option String} {slot : Option TypeId} {path component : String}
    {target : Schema} (h : (Task.schema name slot (.reference path)).Starts c owner s)
    (hname : Reference.localName? path = .ok (some component))
    (hresolve : c.resolveSchema (.reference path) = .ok (some target)) :
    (Task.schema (some component) (some s.next) target).Starts c (some component)
      (s.enter component path) := by
  have hnames : c.Names component target := ⟨path, hname, hresolve⟩
  refine ⟨h.inRange.enter _ _, ?_, ?_, ?_, nofun, ?_⟩
  · rintro _ ⟨⟩
    exact LoweringState.get_push_next
  · rintro name' ⟨id, hlookup, hid⟩
    refine ⟨component, rfl, ?_⟩
    rcases LoweringState.lookup_enter hlookup with ⟨rfl, _⟩ | ⟨_, hlookup⟩
    · exact .refl
    · have hhas := h.inRange.lookup hlookup
      have hid : s.Pending id := (LoweringState.get_push hhas).symm.trans hid
      obtain ⟨owner', ho, hleads⟩ := h.waits name' ⟨id, hlookup, hid⟩
      have hpart := h.parts owner' ho _ List.mem_cons_self
      exact hleads.tail (hpart.leads .reference hname)
  · rintro _ ⟨⟩ schema hmem
    obtain rfl := List.mem_singleton.1 hmem
    exact .whole hnames
  · rintro _ _ _ ⟨⟩
    exact ⟨hnames.path?, LoweringState.lookup_enter_self, fun _ _ => ⟨component, rfl, rfl, hnames⟩⟩

theorem reserve {name : Option String} {schema : Schema} {base : Option Schema}
    {members : List Schema} {properties : List (String × Schema)}
    (h : (Task.schema name none schema).Starts c owner s)
    (hshape : schema.shape c = .record base members properties) :
    (Task.schema name (some s.next) schema).Starts c owner (s.push .pending) where
  inRange := h.inRange.push .pending nofun
  slot := by
    rintro _ ⟨⟩
    exact LoweringState.get_push_next
  waits name hw := by
    obtain ⟨id, hlookup, hid⟩ := hw
    have hhas := h.inRange.lookup hlookup
    exact h.waits name ⟨id, hlookup, (LoweringState.get_push hhas).symm.trans hid⟩
  parts := h.parts
  free := nofun
  slotFor := by
    rintro _ _ _ ⟨⟩
    obtain rfl : name = none := (h.free rfl).1
    refine ⟨Schema.path?_of_record hshape, fun component hid => ?_, fun _ hshape' => ?_⟩
    · exact LoweringState.ne_next_of_has (h.inRange.lookup hid) rfl
    · cases hshape.symm.trans hshape'

end Task.Starts

end RequestDocs.OpenApi
