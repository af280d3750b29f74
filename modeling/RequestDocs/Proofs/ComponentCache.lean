import RequestDocs.Proofs.EnteredComponents
/-!
# The cache of components

While the bodies of an API are lowered, components keep their ids, each id that a component has
points back to it, and no component is entered twice.
-/

namespace RequestDocs.OpenApi

open Relation (ReflTransGen)

/-- Ids of components are ids of the graph, and pointers lead from these ids to references by which
the components are known. -/
structure LoweringState.Cached (s : LoweringState) : Prop where
  has {name id} : s.components.lookup name = some id → s.Has id
  pointed (id) : (∃ path, s.pointers.lookup id = some path) ↔
    ∃ name, s.components.lookup name = some id
  parses {name id path} : s.components.lookup name = some id → s.pointers.lookup id = some path →
    Reference.localName? path = .ok (some name)

variable {c : ApiComponents} {t : Task} {o : Outcome} {s s' : LoweringState}

namespace LoweringState

private theorem lookup_pointers_enter {id : TypeId} (h : id ≠ s.next) (name path : String) :
    (s.enter name path).pointers.lookup id = s.pointers.lookup id := by
  simp only [enter, List.lookup_cons, beq_eq_false_iff_ne.2 h]

private theorem lookup_pointers_enter_self (name path : String) :
    (s.enter name path).pointers.lookup s.next = some path := by
  simp [enter]

namespace Cached

theorem initial : initial.Cached where
  has := nofun
  pointed _ := ⟨nofun, nofun⟩
  parses := nofun

theorem apart (h : s.Cached) {name name' : String} {id : TypeId}
    (hname : s.components.lookup name = some id) (hname' : s.components.lookup name' = some id) :
    name = name' := by
  obtain ⟨path, hpath⟩ := (h.pointed id).2 ⟨name, hname⟩
  cases (h.parses hname hpath).symm.trans (h.parses hname' hpath)
  rfl

theorem congr (h : s.Cached) (hsize : s.graph.size ≤ s'.graph.size)
    (hcomponents : s'.components = s.components) (hpointers : s'.pointers = s.pointers) :
    s'.Cached := by
  constructor
  · rw [hcomponents]
    exact fun hid => Nat.lt_of_lt_of_le (h.has hid) hsize
  · rw [hcomponents, hpointers]
    exact h.pointed
  · rw [hcomponents, hpointers]
    exact h.parses

theorem push (h : s.Cached) (node : TypeNode) : (s.push node).Cached :=
  h.congr (Extends.push s node).size_le rfl rfl

theorem put (h : s.Cached) (id : TypeId) (node : TypeNode) : (s.put id node).Cached :=
  h.congr (Extends.put s id node).size_le rfl rfl

theorem place (h : s.Cached) (node : TypeNode) (slot : Option TypeId) :
    (s.place node slot).2.Cached :=
  h.congr (Extends.place s node slot).size_le place_components place_pointers

theorem enter (h : s.Cached) {name path : String} (hnew : s.components.lookup name = none)
    (hname : Reference.localName? path = .ok (some name)) : (s.enter name path).Cached := by
  have hext : s.Extends (s.enter name path) := .enter hnew path
  constructor
  · intro name' id hid
    rcases lookup_enter hid with ⟨rfl, rfl⟩ | ⟨_, hid⟩
    · exact InRange.has_next
    · exact hext.has (h.has hid)
  · intro id
    by_cases heq : id = s.next
    · subst heq
      exact ⟨fun _ => ⟨name, lookup_enter_self⟩, fun _ => ⟨path, lookup_pointers_enter_self _ _⟩⟩
    · rw [lookup_pointers_enter heq, h.pointed id]
      constructor
      · rintro ⟨name', hid⟩
        exact ⟨name', hext.lookup _ _ hid⟩
      · rintro ⟨name', hid⟩
        rcases lookup_enter hid with ⟨_, hnext⟩ | ⟨_, hid⟩
        · exact absurd hnext heq
        · exact ⟨name', hid⟩
  · intro name' id path' hid hpath
    rcases lookup_enter hid with ⟨rfl, rfl⟩ | ⟨_, hid⟩
    · cases (lookup_pointers_enter_self _ _).symm.trans hpath
      exact hname
    · rw [lookup_pointers_enter (ne_next_of_has (h.has hid))] at hpath
      exact h.parses hid hpath

end Cached

end LoweringState

theorem Lowers.cached (h : Lowers c t s o s') (hs : s.Cached) : s'.Cached := by
  induction h with
  | external => exact hs.push _
  | known | eachNil | membersNil => exact hs
  | unresolved hname hnew => exact (hs.enter hnew hname).put _ _
  | entered hname hnew _ _ ih => exact ih (hs.enter hnew hname)
  | leaf => exact hs.place _ _
  | through _ _ ih | ownSlot _ _ ih => exact ih hs
  | copy _ _ _ _ ih => exact (ih hs).put _ _
  | union _ _ ih | array _ _ ih => exact (ih hs).place _ _
  | openArray => exact (hs.push _).place _ _
  | reserve _ _ ih => exact ih (hs.push _)
  | record _ _ _ _ _ ih₁ ih₂ ih₃ => exact (ih₃ (ih₂ (ih₁ hs))).put _ _
  | eachCons _ _ ih₁ ih₂ | membersCons _ _ _ ih₁ ih₂ => exact ih₂ (ih₁ hs)

/-- A task whose slot is in range and whose references are among the texts. References have neither
a slot nor a name. -/
structure Task.Fits (R : List String) (s : LoweringState) (t : Task) : Prop where
  slot : ∀ id ∈ t.slot?, s.Has id
  references : ∀ schema ∈ t.schemas, schema.references ⊆ R
  free : ∀ name slot path, t = .schema name slot (.reference path) → name = none ∧ slot = none

structure Stage.Fits (R : List String) (k : Stage) : Prop where
  inRange : k.state.InRange
  cached : k.state.Cached
  tasks : ∀ t ∈ k.tasks, t.Fits R k.state

variable {R : List String}

namespace Task.Fits

theorem schema {schema : Schema} (h : schema.references ⊆ R) :
    (Task.schema none none schema).Fits R s where
  slot := noSlot
  references := by simpa [schemas] using h
  free := by
    rintro _ _ _ ⟨⟩
    exact ⟨rfl, rfl⟩

theorem placed {name : Option String} {slot : TypeId} {schema : Schema} (hslot : s.Has slot)
    (h : schema.references ⊆ R) (hpath : schema.path? = none) :
    (Task.schema name (some slot) schema).Fits R s where
  slot := by
    rintro _ ⟨⟩
    exact hslot
  references := by simpa [schemas] using h
  free := by
    rintro _ _ path ⟨⟩
    cases hpath

theorem each {schemas : List Schema} (h : ∀ schema ∈ schemas, schema.references ⊆ R) :
    (Task.each schemas).Fits R s := ⟨noSlot, h, nofun⟩

theorem members {schemas : List Schema} (h : ∀ schema ∈ schemas, schema.references ⊆ R) :
    (Task.members schemas).Fits R s := ⟨noSlot, h, nofun⟩

theorem mono (h : t.Fits R s) (hext : s.Extends s') : t.Fits R s' :=
  ⟨fun id hid => hext.has (h.slot id hid), h.references, h.free⟩

end Task.Fits

namespace Stage.Fits

variable {k k' : Stage}

theorem nil (hs : s.InRange) (hcached : s.Cached) : Fits R ⟨[], s⟩ := ⟨hs, hcached, nofun⟩

theorem single (hs : s.InRange) (hcached : s.Cached) (h : t.Fits R s) : Fits R ⟨[t], s⟩ :=
  ⟨hs, hcached, by simpa using h⟩

private theorem expansion (hR : c.schemaReferences ⊆ R) (hs : s.InRange) (hcached : s.Cached)
    (path : String) : Fits R (c.expansion path s) := by
  unfold ApiComponents.expansion
  split
  · next component hname =>
    split
    · exact .nil hs hcached
    · next hnew =>
      have hcached' : (s.enter component path).Cached := hcached.enter hnew hname
      dsimp only
      split
      · next target hresolve =>
        refine .single (hs.enter _ _) hcached' (.placed LoweringState.InRange.has_next ?_ ?_)
        · exact List.Subset.trans (ApiComponents.references_of_resolveSchema hresolve) hR
        · exact (resolveIn_ok hresolve).1
      · exact .nil (hs.enter _ _) hcached'
  · exact .nil hs hcached

theorem within (hR : c.schemaReferences ⊆ R) (hs : s.InRange) (hcached : s.Cached)
    (ht : ∀ schema ∈ t.schemas, schema.references ⊆ R) : Fits R (c.within t s) := by
  cases t with
  | schema name slot schema =>
    have hschema : schema.references ⊆ R := ht schema List.mem_cons_self
    have hparts (part : Schema) (hmem : part ∈ (schema.shape c).parts) : part.references ⊆ R :=
      List.Subset.trans (Schema.references_of_mem_parts hmem) hschema
    change Fits R (c.opened name slot schema s (schema.shape c))
    cases hshape : schema.shape c with
    | reference path => exact expansion hR hs hcached path
    | leaf | openArray => exact .nil hs hcached
    | sameAs | array =>
      rw [hshape] at hparts
      exact .single hs hcached (.schema (hparts _ List.mem_cons_self))
    | union =>
      rw [hshape] at hparts
      exact .single hs hcached (.each hparts)
    | record base members properties =>
      cases slot with
      | none =>
        refine .single (hs.push .pending (List.forall_mem_nil _)) (hcached.push .pending) ?_
        exact .placed LoweringState.InRange.has_next hschema (Schema.path?_of_record hshape)
      | some slot =>
        simp only [hshape, Shape.parts, List.mem_append] at hparts
        refine ⟨hs, hcached, ?_⟩
        simp only [ApiComponents.opened, List.forall_mem_cons]
        refine ⟨.each ?_, .members ?_, .each ?_, List.forall_mem_nil _⟩
        · exact fun part hmem => hparts part (.inl (.inl hmem))
        · exact fun part hmem => hparts part (.inl (.inr hmem))
        · exact fun part hmem => hparts part (.inr hmem)
  | each schemas =>
    cases schemas with
    | nil => exact .nil hs hcached
    | cons schema schemas =>
      obtain ⟨hschema, hschemas⟩ := List.forall_mem_cons.1 ht
      refine ⟨hs, hcached, ?_⟩
      simp only [ApiComponents.within, List.forall_mem_cons]
      exact ⟨.schema hschema, .each hschemas, List.forall_mem_nil _⟩
  | members members =>
    cases members with
    | nil => exact .nil hs hcached
    | cons member members =>
      obtain ⟨hmember, hmembers⟩ := List.forall_mem_cons.1 ht
      refine ⟨hs, hcached, ?_⟩
      simp only [ApiComponents.within, List.forall_mem_cons]
      exact ⟨.schema hmember, .members hmembers, List.forall_mem_nil _⟩

theorem step (hR : c.schemaReferences ⊆ R) (h : k.Fits R) (hstep : Step c k k') : k'.Fits R := by
  cases hstep with
  | into => exact within hR h.inRange h.cached (h.tasks _ List.mem_cons_self).references
  | past hrun =>
    obtain ⟨ht, htasks⟩ := List.forall_mem_cons.1 h.tasks
    refine ⟨(hrun.inRange h.inRange ht.slot).1, hrun.cached h.cached, ?_⟩
    exact fun t hmem => (htasks t hmem).mono hrun.extends

theorem steps (hR : c.schemaReferences ⊆ R) (h : k.Fits R) (hsteps : ReflTransGen (Step c) k k') :
    k'.Fits R := by
  induction hsteps with
  | refl => exact h
  | tail _ hstep ih => exact ih.step hR hstep

end Stage.Fits

theorem DescribesBody.cached {op : ApiOperation} {body : Option Body}
    (h : DescribesBody c op s body s') (hs : s.Cached) : s'.Cached := by
  cases h with
  | missing | empty => exact hs
  | unspecified => exact hs.push _
  | schema _ hrun => exact hrun.cached hs

theorem Visits.fits {ops : List ApiOperation} {k : Stage} (h : Visits c ops s k)
    (hc : c.references ⊆ R) (hops : ∀ op ∈ ops, op.references ⊆ R) (hs : s.InRange)
    (hcached : s.Cached) : k.Fits R := by
  induction h with
  | here hbody hsteps =>
    have hreferences := bodyReferences_of_bodyOf hc (hops _ List.mem_cons_self) hbody
    refine .steps (fun path hpath => ?_) ?_ hsteps
    · exact hc (List.mem_append_left _ (List.mem_append_left _ hpath))
    · refine .single hs hcached (.schema fun path hpath => ?_)
      exact hreferences (by simp [bodyReferences, hpath])
  | later hdone _ ih =>
    exact ih (fun op hmem => hops op (List.mem_cons_of_mem _ hmem)) (hdone.inRange hs).2.1
      (hdone.cached hcached)

/-- A schema is lowered in the state, while the bodies of the API are: one that is given, or one
that stands for a value of an enumeration or for one of several types. -/
def Api.Calls (api : Api) (schema : Schema) (s : LoweringState) : Prop :=
  ∃ rest, Visits api.components (api.operations.map (·.2.2)) .initial
    ⟨.schema none none schema :: rest, s⟩

/-- A call finds a component that has no id yet, and gives it one. -/
structure Api.Expands (api : Api) (name path : String) (s : LoweringState) : Prop where
  call : api.Calls (.reference path) s
  parses : Reference.localName? path = .ok (some name)
  new : s.components.lookup name = none

inductive Api.Passes (api : Api) : LoweringState → Prop
  | before {schema s} : api.Calls schema s → Passes api s
  | after {schema s id s'} : api.Calls schema s →
      Lowering.lowerSchema api.components schema s = .ok id s' → Passes api s'

namespace Api

variable {api : Api} {schema : Schema}

private theorem fits_of_visits {k : Stage}
    (h : Visits api.components (api.operations.map (·.2.2)) .initial k) :
    k.Fits api.references := by
  refine h.fits (List.subset_append_left _ _) ?_ .initial .initial
  intro op hmem
  obtain ⟨entry, hentry, rfl⟩ := List.mem_map.1 hmem
  exact references_of_mem_operations hentry

theorem Calls.ends (h : api.Calls schema s) : Ends (MalformedIn api.references)
    (Lowering.lowerSchema api.components schema) s fun id s' =>
      Lowers api.components (.schema none none schema) s (.type id) s' := by
  obtain ⟨rest, hvisits⟩ := h
  have hfits := fits_of_visits hvisits
  refine Lowering.lowerSchema_ends ?_ ?_ hfits.inRange
  · exact (hfits.tasks _ List.mem_cons_self).references schema List.mem_cons_self
  · exact fun path hpath => List.mem_append_left _ (List.mem_append_left _
      (List.mem_append_left _ hpath))

theorem Passes.exists_stage (h : api.Passes s) : ∃ tasks,
    Visits api.components (api.operations.map (·.2.2)) .initial ⟨tasks, s⟩ := by
  cases h with
  | before hcall =>
    obtain ⟨rest, hvisits⟩ := hcall
    exact ⟨_, hvisits⟩
  | after hcall hok =>
    have hrun := hcall.ends.of_ok hok
    obtain ⟨rest, hvisits⟩ := hcall
    exact ⟨rest, hvisits.steps (.single (.past hrun))⟩

theorem Passes.cached (h : api.Passes s) : s.Cached := by
  obtain ⟨tasks, hvisits⟩ := h.exists_stage
  exact (fits_of_visits hvisits).cached

theorem Passes.extends_or_extends (h : api.Passes s) (h' : api.Passes s') :
    s.Extends s' ∨ s'.Extends s := by
  obtain ⟨tasks, hvisits⟩ := h.exists_stage
  obtain ⟨tasks', hvisits'⟩ := h'.exists_stage
  exact (hvisits.precedes_or_precedes hvisits').imp (·.extends) (·.extends)

theorem Passes.expanded (h : api.Passes s) {name : String} {id : TypeId}
    (hid : s.components.lookup name = some id) : ∃ path s₀, api.Expands name path s₀ := by
  obtain ⟨tasks, hvisits⟩ := h.exists_stage
  obtain ⟨⟨_, s₀⟩, path, hvisits', hname, hnew, component, slot, rest, htasks⟩ :=
    hvisits.exists_enters rfl hid
  subst htasks
  have hfits := (fits_of_visits hvisits').tasks _ List.mem_cons_self
  obtain ⟨rfl, rfl⟩ := hfits.free component slot path rfl
  exact ⟨path, s₀, ⟨rest, hvisits'⟩, hname, hnew⟩

theorem Expands.unique {name path path' : String} (h : api.Expands name path s)
    (h' : api.Expands name path' s') : path = path' ∧ s = s' := by
  obtain ⟨rest, hvisits⟩ := h.call
  obtain ⟨rest', hvisits'⟩ := h'.call
  have henters : Stage.Enters ⟨.schema none none (.reference path) :: rest, s⟩ path name :=
    ⟨h.parses, h.new, none, none, rest, rfl⟩
  have henters' : Stage.Enters ⟨.schema none none (.reference path') :: rest', s'⟩ path' name :=
    ⟨h'.parses, h'.new, none, none, rest', rfl⟩
  obtain hprecedes | hprecedes := hvisits.precedes_or_precedes hvisits'
  · cases henters.unique henters' hprecedes
    exact ⟨rfl, rfl⟩
  · cases henters'.unique henters hprecedes
    exact ⟨rfl, rfl⟩

end Api

theorem Lowering.lowerSchema_known {path name : String} {id : TypeId}
    (hname : Reference.localName? path = .ok (some name))
    (hid : s.components.lookup name = some id) :
    Lowering.lowerSchema c (.reference path) s = .ok id s := by
  have hparsed : liftFault (Reference.localName? path) s = .ok (some name) s := by
    rw [hname]
    rfl
  have hstate : (get : Lowering LoweringState) s = .ok s s := rfl
  rw [lowerSchema, lower, lowerReference, bind_eq_of_ok hparsed]
  refine (bind_eq_of_ok hstate).trans ?_
  rw [hid]
  rfl

/-- While the bodies of an API are lowered, before and after each call: components have ids of their
own, exactly these ids have pointers, which parse to the names of the components, and of two states
one keeps what the other has. A call ends, unless one of the references is malformed. A reference to
a component that has an id comes to this id and changes nothing; a component that has an id was
given it by a call, and by no other one. -/
theorem Api.calls_cached (api : Api) :
    (∀ s, api.Passes s → s.Cached ∧
      (∀ name name' id, s.components.lookup name = some id →
        s.components.lookup name' = some id → name = name') ∧
      ∀ name id, s.components.lookup name = some id → ∃ path s₀, api.Expands name path s₀) ∧
    (∀ s s', api.Passes s → api.Passes s' → s.Extends s' ∨ s'.Extends s) ∧
    (∀ schema s, api.Calls schema s → Ends (MalformedIn api.references)
      (Lowering.lowerSchema api.components schema) s fun id s' =>
        Lowers api.components (.schema none none schema) s (.type id) s' ∧ s.Extends s') ∧
    (∀ path name id s, api.Calls (.reference path) s →
      Reference.localName? path = .ok (some name) → s.components.lookup name = some id →
        Lowering.lowerSchema api.components (.reference path) s = .ok id s) ∧
    ∀ name path path' s s', api.Expands name path s → api.Expands name path' s' →
      path = path' ∧ s = s' := by
  refine ⟨fun s h => ⟨h.cached, ?_, ?_⟩, ?_, ?_, ?_, ?_⟩
  · exact fun _ _ _ hid hid' => h.cached.apart hid hid'
  · exact fun _ _ hid => h.expanded hid
  · exact fun s s' h h' => h.extends_or_extends h'
  · exact fun schema s h => h.ends.mono fun id s' hrun => ⟨hrun, hrun.extends⟩
  · exact fun path name id s _ hname hid => Lowering.lowerSchema_known hname hid
  · exact fun name path path' s s' h h' => h.unique h'

def linkedNodes : Api where
  title := "Nodes"
  security := []
  paths := [("/nodes", ⟨[("POST", ⟨none, [], [], some (.object body)⟩)], []⟩)]
  components := ⟨[("Node", record)], [], []⟩
where
  node : Schema := .reference "#/components/schemas/Node"
  body : ApiBody := ⟨[("application/json", some node)]⟩
  record : Schema := .object ⟨.single .object, none, [], none⟩ [] [] [] [("next", node)] .absent

theorem linkedNodes_cached : ∃ s, linkedNodes.Calls linkedNodes.node .initial ∧
    linkedNodes.Calls linkedNodes.node s ∧ s.components = [("Node", ⟨0⟩)] ∧ s.Cached ∧
    Lowering.lowerSchema linkedNodes.components linkedNodes.node s = .ok ⟨0⟩ s ∧
    ∀ path s', linkedNodes.Expands "Node" path s' → s' = .initial := by
  let s := LoweringState.initial.enter "Node" "#/components/schemas/Node"
  have hname : Reference.localName? "#/components/schemas/Node" = .ok (some "Node") := rfl
  have hfirst : linkedNodes.Calls linkedNodes.node .initial := ⟨[], .here rfl .refl⟩
  have hsecond : linkedNodes.Calls linkedNodes.node s := by
    refine ⟨[.each []], .here rfl ?_⟩
    refine .head .into (.head .into ?_)
    exact .head (.past .eachNil) (.head (.past .membersNil) (.head .into .refl))
  obtain ⟨hcached, -, -, hknown, honce⟩ := linkedNodes.calls_cached
  have hexpands : linkedNodes.Expands "Node" "#/components/schemas/Node" .initial :=
    ⟨hfirst, hname, rfl⟩
  refine ⟨s, hfirst, hsecond, rfl, (hcached s (.before hsecond)).1, ?_, ?_⟩
  · exact hknown _ _ ⟨0⟩ s hsecond hname rfl
  · exact fun path s' h => (honce _ _ _ _ _ hexpands h).2.symm

end RequestDocs.OpenApi
