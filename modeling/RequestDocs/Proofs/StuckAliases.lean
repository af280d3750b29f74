import RequestDocs.Proofs.FilledSources
/-!
# Aliases of components under way

A component that is the same as another one takes over its node. When the other one leads to it, that
node is still pending, and what is taken over stays pending for good.
-/

namespace RequestDocs.OpenApi

open Relation

def LoweringState.Knows (s : LoweringState) (name : String) : Prop := ∃ id, s.SlotOf name id

/-- All references have the form of a reference, and those in schemas point to schemas. -/
structure ApiComponents.Regular (c : ApiComponents) : Prop where
  parse : ∀ path ∈ c.references, Reference.parse? path ≠ none
  kind : ∀ path ∈ c.schemaReferences, Reference.PointsToSchema path

variable {c : ApiComponents} {t t' : Task} {o : Outcome} {s s' s₁ : LoweringState}

theorem LoweringState.Extends.knows (h : s.Extends s') {name : String} (hname : s.Knows name) :
    s'.Knows name := by
  obtain ⟨id, hid⟩ := hname
  exact ⟨id, h.lookup name id hid⟩

theorem Lowers.knows (h : Lowers c t s o s') {path name : String} (hfollows : t.Follows c path)
    (hname : Reference.localName? path = .ok (some name)) : s'.Knows name := by
  obtain ⟨schema, hmem, hfollows⟩ := hfollows
  induction h generalizing schema with
  | external hname' =>
    obtain rfl := List.mem_singleton.1 hmem
    obtain rfl := hfollows.eq_of_reference
    cases hname'.symm.trans hname
  | known hname' hlookup =>
    obtain rfl := List.mem_singleton.1 hmem
    obtain rfl := hfollows.eq_of_reference
    cases hname'.symm.trans hname
    exact ⟨_, hlookup⟩
  | unresolved hname' =>
    obtain rfl := List.mem_singleton.1 hmem
    obtain rfl := hfollows.eq_of_reference
    cases hname'.symm.trans hname
    exact ⟨_, LoweringState.lookup_enter_self⟩
  | entered hname' _ _ hrun =>
    obtain rfl := List.mem_singleton.1 hmem
    obtain rfl := hfollows.eq_of_reference
    cases hname'.symm.trans hname
    exact hrun.extends.knows ⟨_, LoweringState.lookup_enter_self⟩
  | leaf hshape | openArray hshape =>
    obtain rfl := List.mem_singleton.1 hmem
    obtain ⟨_, hpart, _⟩ := exists_part_of_follows hfollows hshape nofun
    cases hpart
  | through hshape _ ih | ownSlot hshape _ ih | copy hshape _ _ _ ih =>
    obtain rfl := List.mem_singleton.1 hmem
    obtain ⟨part, hpart, hfollows⟩ := exists_part_of_follows hfollows hshape nofun
    exact ih part hpart hfollows
  | union hshape _ ih | array hshape _ ih =>
    obtain rfl := List.mem_singleton.1 hmem
    obtain ⟨part, hpart, hfollows⟩ := exists_part_of_follows hfollows hshape nofun
    exact (LoweringState.Extends.place _ _ _).knows (ih part hpart hfollows)
  | reserve _ _ ih => exact ih schema hmem hfollows
  | record hshape _ hrun₂ hrun₃ _ ih₁ ih₂ ih₃ =>
    obtain rfl := List.mem_singleton.1 hmem
    obtain ⟨part, hpart, hfollows⟩ := exists_part_of_follows hfollows hshape nofun
    rcases List.mem_append.1 hpart with hpart | hpart
    · rcases List.mem_append.1 hpart with hpart | hpart
      · exact (hrun₂.extends.trans hrun₃.extends).knows (ih₁ part hpart hfollows)
      · exact hrun₃.extends.knows (ih₂ part hpart hfollows)
    · exact ih₃ part hpart hfollows
  | eachNil | membersNil => cases hmem
  | eachCons _ hrun₂ ih₁ ih₂ | membersCons _ _ hrun₂ ih₁ ih₂ =>
    rcases List.mem_cons.1 hmem with rfl | hmem
    · exact hrun₂.extends.knows (ih₁ _ List.mem_cons_self hfollows)
    · exact ih₂ schema hmem hfollows

/-- Once a component has become known, so have those that it leads to. -/
def LoweringState.Explores (c : ApiComponents) (s s' : LoweringState) : Prop :=
  ∀ name name', s'.Knows name → ¬s.Knows name → c.Leads name name' → s'.Knows name'

private theorem LoweringState.Explores.trans (h : s.Explores c s₁) (h' : s₁.Explores c s')
    (hext : s₁.Extends s') : s.Explores c s' := by
  intro name name' hknows hnew hleads
  by_cases hmid : s₁.Knows name
  · exact hext.knows (h name name' hmid hnew hleads)
  · exact h' name name' hknows hmid hleads

theorem Lowers.explores (hc : c.Regular) (h : Lowers c t s o s') (ht : t.Regular c) :
    s.Explores c s' := by
  have hplace {s s' : LoweringState} {node : TypeNode} {slot : Option TypeId}
      (h : s.Explores c s') : s.Explores c (s'.place node slot).2 := by
    simpa [LoweringState.Explores, LoweringState.Knows, LoweringState.SlotOf] using h
  have hsame (s : LoweringState) : s.Explores c s := fun _ _ hknows hnew => absurd hknows hnew
  induction h with
  | external | known | eachNil | membersNil => exact hsame _
  | @unresolved _ _ path s component hname hnew hresolve =>
    rintro name name' ⟨id, hid⟩ hold hleads
    rcases LoweringState.lookup_enter hid with ⟨rfl, _⟩ | ⟨_, hid⟩
    · obtain ⟨schema, _, hnames, _⟩ := hleads
      cases hresolve.symm.trans (hnames.resolve ht.reference hname)
    · exact absurd ⟨id, hid⟩ hold
  | @entered _ _ path s component target s' hname hnew hresolve hrun ih =>
    intro name name' hknows hold hleads
    by_cases heq : name = component
    · subst heq
      obtain ⟨schema, path', hnames, hfollows, hname'⟩ := hleads
      obtain rfl := hnames.unique ⟨path, hname, hresolve⟩
      exact hrun.knows ⟨schema, List.mem_cons_self, hfollows⟩ hname'
    · refine ih (.of_resolve hc.kind hresolve) name name' hknows ?_ hleads
      rintro ⟨id, hid⟩
      rcases LoweringState.lookup_enter hid with ⟨rfl, _⟩ | ⟨_, hid⟩
      · exact heq rfl
      · exact hold ⟨id, hid⟩
  | leaf => exact hplace (hsame _)
  | openArray => exact hplace (hsame _)
  | through hshape _ ih | ownSlot hshape _ ih | copy hshape _ _ _ ih =>
    exact ih (ht.part (Schema.parts_subset hshape))
  | union hshape _ ih | array hshape _ ih =>
    exact hplace (ih (ht.part (Schema.parts_subset hshape)))
  | reserve hshape _ ih => exact ih ht
  | @record _ _ _ base members properties _ _ _ _ _ _ _ hshape _ hrun₂ hrun₃ _ ih₁ ih₂ ih₃ =>
    have hall : (Task.each (base.toList ++ members ++ properties.map (·.2))).Regular c :=
      ht.part (Schema.parts_subset hshape)
    have h₁ := ih₁ (hall.mono Shape.base_subset_parts)
    have h₂ := ih₂ (hall.mono Shape.members_subset_parts)
    have h₃ := ih₃ (hall.mono Shape.properties_subset_parts)
    have hall := (h₁.trans h₂ hrun₂.extends).trans h₃ hrun₃.extends
    exact hall
  | eachCons _ hrun₂ ih₁ ih₂ | membersCons _ _ hrun₂ ih₁ ih₂ =>
    have h₁ := ih₁ (ht.mono (by simp [Task.schemas]))
    exact h₁.trans (ih₂ (ht.mono (by simp [Task.schemas]))) hrun₂.extends

theorem Lowers.pending_of_denotes {name : Option String} {slot id : TypeId} {schema : Schema}
    {target : String} (h : Lowers c (.schema name (some slot) schema) s o s')
    (hpath : schema.path? = none) (hdenotes : Denotes c schema target) (hid : s.SlotOf target id)
    (hpending : s.Pending id) (hslot : s.Pending slot) : s'.Pending slot := by
  cases hdenotes with
  | reference => cases hpath
  | sameAs hshape hdenotes =>
    obtain ⟨_, _, hrun, -, ⟨-, rfl⟩ | ⟨-, _, hnode, rfl⟩⟩ := h.comesTo hshape
    · exact (hrun.get_eq hslot.has nofun).trans hslot
    · have hcopied := hrun.lookup_of_denotes hdenotes
      rw [hrun.extends.lookup target id hid] at hcopied
      cases hcopied
      cases hnode.symm.trans ((hrun.get_eq hpending.has nofun).trans hpending)
      rw [rename_eq_pending.2 rfl]
      exact LoweringState.get_put_self (hrun.extends.has hslot.has)

def LoweringState.Stuck (s : LoweringState) (name : String) : Prop :=
  ∀ id, s.SlotOf name id → s.Pending id

private theorem LoweringState.Stuck.push {name : String} (h : s.Stuck name) (node : TypeNode) :
    (s.push node).Stuck name := fun id hid =>
  (LoweringState.get_push (h id hid).has).trans (h id hid)

private theorem LoweringState.Stuck.put {name : String} (h : s.Stuck name) (node : TypeNode)
    {slot : TypeId} (hslot : ¬s.SlotOf name slot) : (s.put slot node).Stuck name := by
  intro id hid
  refine (LoweringState.get_put_of_ne fun heq => ?_).trans (h id hid)
  subst heq
  exact hslot hid

private theorem LoweringState.Stuck.place {name : String} (h : s.Stuck name) (node : TypeNode)
    {slot : Option TypeId} (hslot : ∀ id ∈ slot, ¬s.SlotOf name id) :
    (s.place node slot).2.Stuck name := by
  cases slot with
  | none => exact h.push node
  | some slot => exact h.put node (hslot slot rfl)

/-- While a component is pending, one that has its type does not become anything else. -/
theorem Lowers.stuck (hc : c.Regular) {name target : String} {schema : Schema} {id : TypeId}
    (hnames : c.Names name schema) (hdenotes : Denotes c schema target) (h : Lowers c t s o s')
    (hs : s.InRange) (ht : t.Regular c) (hslot : ∀ i ∈ t.slot?, s.Has i ∧ ¬s.SlotOf name i)
    (hid : s.SlotOf target id) (hpending : s.Pending id) (hstuck : s.Stuck name) :
    s'.Stuck name := by
  have hfree {t : Task} {o : Outcome} {s s' : LoweringState} {slot : Option TypeId}
      (hslot : ∀ i ∈ slot, s.Has i ∧ ¬s.SlotOf name i) (hrun : Lowers c t s o s') :
      ∀ i ∈ slot, s'.Has i ∧ ¬s'.SlotOf name i := fun i hi =>
    ⟨hrun.extends.has (hslot i hi).1, fun h => (hslot i hi).2 (hrun.lookup_old h (hslot i hi).1)⟩
  have hkeeps {t : Task} {o : Outcome} {s s' : LoweringState} (hrun : Lowers c t s o s')
      (ht : t.slot? = none) (hid : s.SlotOf target id) (hpending : s.Pending id) :
      s'.SlotOf target id ∧ s'.Pending id :=
    ⟨hrun.extends.lookup _ _ hid, (hrun.get_eq hpending.has (by simp [ht])).trans hpending⟩
  have hfresh {s : LoweringState} (hs : s.InRange) : ¬s.SlotOf name s.next := fun hid =>
    LoweringState.ne_next_of_has (hs.lookup hid) rfl
  induction h with
  | external => exact hstuck.push _
  | known | eachNil | membersNil => exact hstuck
  | @unresolved _ _ path s component hname hnew hresolve =>
    have hne : name ≠ component := by
      rintro rfl
      cases hresolve.symm.trans (hnames.resolve ht.reference hname)
    have henter : (s.enter component path).Stuck name := by
      intro i hi
      rcases LoweringState.lookup_enter hi with ⟨rfl, _⟩ | ⟨_, hi⟩
      · exact absurd rfl hne
      · exact hstuck.push .pending i hi
    refine henter.put _ fun hi => ?_
    rcases LoweringState.lookup_enter hi with ⟨rfl, _⟩ | ⟨_, hi⟩
    · exact absurd rfl hne
    · exact hfresh hs hi
  | @entered _ _ path s component target' s' hname hnew hresolve hrun ih =>
    have hext := LoweringState.Extends.enter hnew path
    have hid' := hext.lookup target id hid
    have hpending' : (s.enter component path).Pending id :=
      (LoweringState.get_push hpending.has).trans hpending
    by_cases heq : name = component
    · subst heq
      obtain rfl := hnames.unique ⟨path, hname, hresolve⟩
      have hslot := hrun.pending_of_denotes hnames.path? hdenotes hid' hpending'
        LoweringState.get_push_next
      intro i hi
      rw [LoweringState.SlotOf, hrun.extends.lookup _ _ LoweringState.lookup_enter_self] at hi
      cases hi
      exact hslot
    · refine ih (hs.enter _ _) (.of_resolve hc.kind hresolve) ?_ hid' hpending' ?_
      · rintro _ ⟨⟩
        refine ⟨LoweringState.InRange.has_next, fun hi => ?_⟩
        rcases LoweringState.lookup_enter hi with ⟨rfl, _⟩ | ⟨_, hi⟩
        · exact heq rfl
        · exact hfresh hs hi
      · intro i hi
        rcases LoweringState.lookup_enter hi with ⟨rfl, _⟩ | ⟨_, hi⟩
        · exact absurd rfl heq
        · exact hstuck.push .pending i hi
  | leaf => exact hstuck.place _ fun i hi => (hslot i hi).2
  | openArray => exact (hstuck.push _).place _ fun i hi => (hslot i hi).2
  | through hshape _ ih | ownSlot hshape _ ih =>
    exact ih hs (ht.part (Schema.parts_subset hshape)) noSlot hid hpending hstuck
  | copy hshape hrun _ _ ih =>
    have h := ih hs (ht.part (Schema.parts_subset hshape)) noSlot hid hpending hstuck
    exact h.put _ (hfree hslot hrun _ rfl).2
  | union hshape hrun ih | array hshape hrun ih =>
    have h := ih hs (ht.part (Schema.parts_subset hshape)) noSlot hid hpending hstuck
    exact h.place _ fun i hi => (hfree hslot hrun i hi).2
  | reserve hshape _ ih =>
    refine ih (hs.push .pending (List.forall_mem_nil _)) ht ?_ hid ?_ (hstuck.push _)
    · rintro _ ⟨⟩
      exact ⟨LoweringState.InRange.has_next, hfresh hs⟩
    · exact (LoweringState.get_push hpending.has).trans hpending
  | @record _ _ _ base members properties _ _ _ _ _ _ _ hshape hrun₁ hrun₂ hrun₃ _ ih₁ ih₂ ih₃ =>
    have hall : (Task.each (base.toList ++ members ++ properties.map (·.2))).Regular c :=
      ht.part (Schema.parts_subset hshape)
    have h₁ := ih₁ hs (hall.mono Shape.base_subset_parts) noSlot hid hpending hstuck
    obtain ⟨hid₁, hpending₁⟩ := hkeeps hrun₁ rfl hid hpending
    have hs₁ := (hrun₁.inRange hs noSlot).1
    have h₂ := ih₂ hs₁ (hall.mono Shape.members_subset_parts) noSlot hid₁ hpending₁ h₁
    obtain ⟨hid₂, hpending₂⟩ := hkeeps hrun₂ rfl hid₁ hpending₁
    have hs₂ := (hrun₂.inRange hs₁ noSlot).1
    have h₃ := ih₃ hs₂ (hall.mono Shape.properties_subset_parts) noSlot hid₂ hpending₂ h₂
    exact h₃.put _ (hfree (hfree (hfree hslot hrun₁) hrun₂) hrun₃ _ rfl).2
  | eachCons hrun₁ hrun₂ ih₁ ih₂ | membersCons hrun₁ _ hrun₂ ih₁ ih₂ =>
    have h₁ := ih₁ hs (ht.mono (by simp [Task.schemas])) noSlot hid hpending hstuck
    obtain ⟨hid, hpending⟩ := hkeeps hrun₁ rfl hid hpending
    exact ih₂ (hrun₁.inRange hs noSlot).1 (ht.mono (by simp [Task.schemas])) noSlot hid hpending h₁

def ApiOperation.referring (path : String) : ApiOperation :=
  ⟨none, [], [], some (.object ⟨[("application/json", some (.reference path))]⟩)⟩

def ApiComponents.pair (c : ApiComponents) (first second : String) : Api where
  title := ""
  security := []
  paths := [("/first", ⟨[("POST", .referring first)], []⟩),
    ("/second", ⟨[("POST", .referring second)], []⟩)]
  components := c

private theorem lowers_of_referring {path : String} {body : Option Body}
    (h : DescribesBody c (.referring path) s body s') :
    ∃ b, body = some b ∧ Lowers c (.schema none none (.reference path)) s (.type b.type) s' := by
  have hbody : c.bodyOf (.referring path) =
      .ok (some ⟨[("application/json", some (.reference path))]⟩) := rfl
  cases h with
  | missing h | empty h | unspecified h => cases hbody.symm.trans h
  | schema h hrun =>
    cases hbody.symm.trans h
    exact ⟨_, rfl, hrun⟩

private theorem names_of_leads {name target : String} {schema : Schema}
    (h : ReflTransGen c.Leads target name) (hnames : c.Names name schema) :
    ∃ schema', c.Names target schema' := by
  cases h.cases_head with
  | inl heq => exact ⟨schema, heq ▸ hnames⟩
  | inr hleads =>
    obtain ⟨_, ⟨schema', _, hnames', _⟩, _⟩ := hleads
    exact ⟨schema', hnames'⟩

private theorem pending_of_run (hc : c.Regular) {name target path : String} {schema schema' : Schema}
    {id : TypeId} (hnames : c.Names name schema) (hdenotes : Denotes c schema target)
    (hleads : ReflTransGen c.Leads target name)
    (hname : Reference.localName? path = .ok (some target))
    (hresolve : c.resolveSchema (.reference path) = .ok (some schema'))
    (h : Lowers c (.schema none none (.reference path)) .initial (.type id) s) :
    ∃ slot, s.SlotOf name slot ∧ s.Pending slot := by
  obtain ⟨heq, hrun⟩ := h.of_entered hname rfl hresolve
  cases heq
  have hs := LoweringState.InRange.initial.enter target path
  have hknown : s.SlotOf target _ := hrun.extends.lookup _ _ LoweringState.lookup_enter_self
  by_cases heq : name = target
  · subst heq
    obtain rfl := hnames.unique ⟨path, hname, hresolve⟩
    exact ⟨_, hknown, hrun.pending_of_denotes hnames.path? hdenotes
      LoweringState.lookup_enter_self LoweringState.get_push_next LoweringState.get_push_next⟩
  · have hall (component : String) (hleads : ReflTransGen c.Leads target component) :
        s.Knows component := by
      induction hleads with
      | refl => exact ⟨_, hknown⟩
      | @tail mid component _ hlead ih =>
        by_cases hmid : mid = target
        · subst hmid
          obtain ⟨_, path', hnames', hfollows, hname'⟩ := hlead
          obtain rfl := hnames'.unique ⟨path, hname, hresolve⟩
          exact hrun.knows ⟨_, List.mem_cons_self, hfollows⟩ hname'
        · refine hrun.explores hc (.of_resolve hc.kind hresolve) mid component ih ?_ hlead
          rintro ⟨i, hi⟩
          rcases LoweringState.lookup_enter hi with ⟨rfl, _⟩ | ⟨_, hi⟩
          · exact hmid rfl
          · cases hi
    obtain ⟨slot, hslot⟩ := hall name hleads
    have hold (i : TypeId) : ¬(LoweringState.initial.enter target path).SlotOf name i := by
      intro hi
      rcases LoweringState.lookup_enter hi with ⟨rfl, _⟩ | ⟨_, hi⟩
      · exact heq rfl
      · cases hi
    refine ⟨slot, hslot, hrun.stuck hc hnames hdenotes hs (.of_resolve hc.kind hresolve) ?_
      LoweringState.lookup_enter_self LoweringState.get_push_next ?_ slot hslot⟩
    · rintro _ ⟨⟩
      exact ⟨LoweringState.InRange.has_next, hold _⟩
    · exact fun i hi => absurd hi (hold i)

private theorem mem_references_of_pair {first second text : String}
    (h : text ∈ (c.pair first second).references) :
    text ∈ c.references ∨ text = first ∨ text = second := by
  simpa [Api.references, ApiComponents.pair, ApiPath.references, ApiOperation.references,
    ApiOperation.referring, parameterReferences, bodyReferences, Schema.references] using h

theorem ApiComponents.Regular.pair_leadsTo [Spelling]
    (hc : c.Regular) {first second name name' : String}
    (hfirst : Reference.localName? first = .ok (some name))
    (hsecond : Reference.localName? second = .ok (some name')) :
    ∃ source s, (c.pair first second).source = .ok source ∧
      (c.pair first second).LeadsTo source s := by
  rcases (c.pair first second).source_cases with h | ⟨_, _, text, hmem, hparse, rfl⟩
  · exact h
  · obtain ⟨_, hparse₁, _⟩ := Reference.parse_of_localName hfirst
    obtain ⟨_, hparse₂, _⟩ := Reference.parse_of_localName hsecond
    rcases mem_references_of_pair hmem with hmem | rfl | rfl
    · exact absurd hparse (hc.parse text hmem)
    · cases hparse.symm.trans (Reference.parse_ok hparse₁)
    · cases hparse.symm.trans (Reference.parse_ok hparse₂)

/-- The second request has a pending body when its component has the type of the first one, which
leads to it. -/
private theorem pending_of_pair [Spelling] (hc : c.Regular) {name target path path' : String}
    {schema schema' : Schema} (hnames : c.Names name schema) (hdenotes : Denotes c schema target)
    (hleads : ReflTransGen c.Leads target name)
    (hname : Reference.localName? path = .ok (some target))
    (hresolve : c.resolveSchema (.reference path) = .ok (some schema'))
    (hname' : Reference.localName? path' = .ok (some name)) :
    ∃ source, (c.pair path path').source = .ok source ∧
      ∃ service ∈ source.services, ∃ op ∈ service.operations, ∃ body ∈ op.body,
        source.types.get body.type = .ok .pending := by
  obtain ⟨source, s, hsource, htypes, _, service, hservices, hall⟩ := hc.pair_leadsTo hname hname'
  replace hall : DescribesAll c [.referring path, .referring path'] .initial
    (service.operations.map (·.body)) s := hall
  generalize hbodies : service.operations.map (·.body) = bodies at hall
  cases hall with | cons hfirst hrest =>
  cases hrest with | cons hsecond hnil =>
  cases hnil
  obtain ⟨_, rfl, hrun⟩ := lowers_of_referring hfirst
  obtain ⟨slot, hslot, hpending⟩ := pending_of_run hc hnames hdenotes hleads hname hresolve hrun
  obtain ⟨body, rfl, hrun'⟩ := lowers_of_referring hsecond
  obtain ⟨htype, rfl⟩ := hrun'.of_known hname' hslot
  obtain ⟨op, hop, hbody⟩ := List.mem_map.1 (hbodies ▸ List.mem_cons_of_mem _ List.mem_cons_self)
  refine ⟨source, hsource, service, by simp [hservices], op, hop, body, hbody, ?_⟩
  rw [htypes, Outcome.type.inj htype]
  exact hpending

namespace ApiComponents

/-- Every source that is made with the components is filled. -/
def SourcesFilled [Spelling] (c : ApiComponents) : Prop :=
  ∀ api : Api, api.components = c → ∀ source, api.source = .ok source → source.Filled c

/-- Sources are filled while no component is the same as one that leads to it. Where references are
regular this is the only case: otherwise some source has a pending body. -/
theorem sourcesFilled_iff_aliasesApart [Spelling] (c : ApiComponents) :
    (c.AliasesApart → c.SourcesFilled) ∧ (c.Regular → (c.SourcesFilled ↔ c.AliasesApart)) := by
  have hfilled (hapart : c.AliasesApart) : c.SourcesFilled := by
    rintro api rfl source hsource
    rcases api.source_cases with ⟨source', s, hsource', hleads⟩ | ⟨f, hfault, _⟩
    · cases hsource.symm.trans hsource'
      exact hleads.filled hapart
    · cases hsource.symm.trans hfault
  refine ⟨hfilled, fun hc => ⟨fun hall name schema target hnames hdenotes hleads => ?_, hfilled⟩⟩
  obtain ⟨_, path, hname, hresolve⟩ := names_of_leads hleads hnames
  obtain ⟨path', hname', _⟩ := id hnames
  obtain ⟨source, hsource, service, hservice, op, hop, body, hbody, hpending⟩ :=
    pending_of_pair hc hnames hdenotes hleads hname hresolve hname'
  exact (hall _ rfl source hsource).bodies service hservice op hop body hbody _ .refl hpending

def ownField : ApiComponents where
  schemas := [
    ("A", .object ⟨.absent, none, [], none⟩ [.reference "#/components/schemas/B"] [] [] [] .absent),
    ("B", .object ⟨.single .object, none, [], none⟩ [] [] []
      [("a", .reference "#/components/schemas/A")] .absent)]
  parameters := []
  requestBodies := []

private theorem ownField_regular : ownField.Regular where
  parse := by decide +kernel
  kind := by
    have hreferences : ownField.schemaReferences =
      ["#/components/schemas/B", "#/components/schemas/A"] := rfl
    have hA : Reference.parse? "#/components/schemas/A" = some ⟨"schemas", "A"⟩ := by
      decide +kernel
    have hB : Reference.parse? "#/components/schemas/B" = some ⟨"schemas", "B"⟩ := by
      decide +kernel
    simp [Reference.PointsToSchema, hreferences, hA, hB]

attribute [local instance] Spelling.plain

/-- After the field has been lowered with its record, it has no type of its own. -/
theorem ownField_pending : ∃ source,
    (ownField.pair "#/components/schemas/B" "#/components/schemas/A").source = .ok source ∧
      ∃ service ∈ source.services, ∃ op ∈ service.operations, ∃ body ∈ op.body,
        source.types.get body.type = .ok .pending := by
  have hA : Reference.localName? "#/components/schemas/A" = .ok (some "A") := rfl
  have hB : Reference.localName? "#/components/schemas/B" = .ok (some "B") := rfl
  have hresolve : ownField.resolveSchema (.reference "#/components/schemas/A") =
    .ok (some (.object ⟨.absent, none, [], none⟩ [.reference "#/components/schemas/B"] [] [] []
      .absent)) := rfl
  have hresolve' : ownField.resolveSchema (.reference "#/components/schemas/B") =
    .ok (some (.object ⟨.single .object, none, [], none⟩ [] [] []
      [("a", .reference "#/components/schemas/A")] .absent)) := rfl
  have hleads : ownField.Leads "B" "A" :=
    ⟨_, _, ⟨_, hB, hresolve'⟩, .part List.mem_cons_self .reference, hA⟩
  exact pending_of_pair ownField_regular ⟨_, hA, hresolve⟩ (.sameAs rfl (.reference hB))
    (.single hleads) hB hresolve' hA

end ApiComponents

end RequestDocs.OpenApi
