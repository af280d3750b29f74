import RequestDocs.OpenApi.Requests
import RequestDocs.Proofs.Generation
import RequestDocs.Proofs.LoweringRuns
/-!
# Sources of APIs

The bodies of an API lowered one after the other. Nothing but a malformed reference stands in the
way of the source of an API, and nothing at all in the way of what is generated from it.
-/

namespace RequestDocs.OpenApi

def parameterReferences (parameters : List (OrReference ApiParameter)) : List String :=
  parameters.filterMap OrReference.path?

def bodyReferences : OrReference ApiBody → List String
  | .reference path => [path]
  | .object body => body.content.flatMap fun entry => entry.2.toList.flatMap Schema.references

def ApiComponents.references (c : ApiComponents) : List String :=
  c.schemaReferences ++ parameterReferences (c.parameters.map (·.2)) ++
    c.requestBodies.flatMap fun entry => bodyReferences entry.2

def ApiOperation.references (op : ApiOperation) : List String :=
  parameterReferences op.parameters ++ op.requestBody.toList.flatMap bodyReferences

def ApiPath.references (item : ApiPath) : List String :=
  parameterReferences item.parameters ++ item.operations.flatMap fun entry => entry.2.references

def Api.references (api : Api) : List String :=
  api.components.references ++ api.paths.flatMap fun entry => entry.2.references

def ApiComponents.bodyOf (c : ApiComponents) (op : ApiOperation) : Except Fault (Option ApiBody) :=
  match op.requestBody with
  | none => return none
  | some body => c.resolveBody body

/-- How the body of an operation leads from one state to another. -/
inductive DescribesBody (c : ApiComponents) (op : ApiOperation) (s : LoweringState) :
    Option Body → LoweringState → Prop
  | missing : c.bodyOf op = .ok none → DescribesBody c op s none s
  | empty : c.bodyOf op = .ok (some ⟨[]⟩) → DescribesBody c op s none s
  | unspecified {contentType rest body} :
      c.bodyOf op = .ok (some ⟨(contentType, none) :: rest⟩) → body.type = s.next →
      DescribesBody c op s (some body) (s.push (.unknown "unspecified"))
  | schema {contentType schema rest body s'} :
      c.bodyOf op = .ok (some ⟨(contentType, some schema) :: rest⟩) →
      Lowers c (.schema none none schema) s (.type body.type) s' →
      DescribesBody c op s (some body) s'

inductive DescribesAll (c : ApiComponents) :
    List ApiOperation → LoweringState → List (Option Body) → LoweringState → Prop
  | nil {s} : DescribesAll c [] s [] s
  | cons {op ops s body s₁ bodies s₂} : DescribesBody c op s body s₁ →
      DescribesAll c ops s₁ bodies s₂ → DescribesAll c (op :: ops) s (body :: bodies) s₂

variable {c : ApiComponents} {op : ApiOperation} {ops : List ApiOperation} {s s' : LoweringState}

theorem DescribesBody.inRange {body : Option Body} (h : DescribesBody c op s body s')
    (hs : s.InRange) : s.Extends s' ∧ s'.InRange ∧ ∀ b ∈ body, s'.Has b.type := by
  cases h with
  | missing | empty => exact ⟨.refl s, hs, (by simp)⟩
  | unspecified _ htype =>
    refine ⟨.push _ _, hs.push (.unknown _) (List.forall_mem_nil _), fun b hb => ?_⟩
    rw [← Option.mem_some.1 hb, htype]
    exact LoweringState.InRange.has_next
  | schema _ hrun =>
    obtain ⟨hs', hids⟩ := hrun.inRange hs noSlot
    refine ⟨hrun.extends, hs', fun b hb => ?_⟩
    rw [← Option.mem_some.1 hb]
    exact hids _ List.mem_cons_self

theorem DescribesAll.inRange {bodies : List (Option Body)} (h : DescribesAll c ops s bodies s')
    (hs : s.InRange) :
    s.Extends s' ∧ s'.InRange ∧ ∀ body ∈ bodies, ∀ b ∈ body, s'.Has b.type := by
  induction h with
  | nil => exact ⟨.refl _, hs, by simp⟩
  | cons hbody _ ih =>
    obtain ⟨hext, hs₁, hhas⟩ := hbody.inRange hs
    obtain ⟨hext', hs₂, hhas'⟩ := ih hs₁
    refine ⟨hext.trans hext', hs₂, fun body hmem b hb => ?_⟩
    rcases List.mem_cons.1 hmem with rfl | hmem
    · exact hext'.has (hhas b hb)
    · exact hhas' body hmem b hb

variable {R : List String}

private def Refers {α : Type} (R : List String) (x : Except Fault α) : Prop :=
  ∀ f, x = .error f → MalformedIn R f

private theorem Refers.bind {α β : Type} {x : Except Fault α} {next : α → Except Fault β}
    (hx : Refers R x) (hnext : ∀ a, Refers R (next a)) : Refers R (x >>= next) := by
  intro f h
  cases x with
  | ok a => exact hnext a f h
  | error f' =>
    cases h
    exact hx _ rfl

private theorem Refers.mapM {α β : Type} {step : α → Except Fault β} (xs : List α)
    (h : ∀ x ∈ xs, Refers R (step x)) : Refers R (xs.mapM step) := by
  induction xs with
  | nil => exact nofun
  | cons x xs ih =>
    rw [List.mapM_cons]
    refine .bind (h x List.mem_cons_self) fun y => ?_
    exact .bind (ih fun x' hx' => h x' (List.mem_cons_of_mem x hx')) fun _ => nofun

private theorem resolveParameters_refers (hc : c.references ⊆ R)
    {parameters : List (OrReference ApiParameter)} (hR : parameterReferences parameters ⊆ R) :
    Refers R (resolveParameters c parameters) := by
  refine .bind (.mapM _ fun p hp => .bind (fun f h => ?_) fun _ => nofun) fun _ => nofun
  refine (resolveIn_error h).mono (List.append_subset.2 ⟨fun path hpath => ?_, fun path hpath => ?_⟩)
  · exact hR (List.mem_filterMap.2 ⟨p, hp, by simpa using hpath⟩)
  · obtain ⟨entry, hentry, hpath⟩ := List.mem_flatMap.1 hpath
    refine hc (List.mem_append_left _ (List.mem_append_right _ (List.mem_filterMap.2 ?_)))
    exact ⟨entry.2, List.mem_map.2 ⟨entry, hentry, rfl⟩, by simpa using hpath⟩

private theorem collectParameters_refers (hc : c.references ⊆ R) (path : String)
    {shared own : List (OrReference ApiParameter)} (hshared : parameterReferences shared ⊆ R)
    (hown : parameterReferences own ⊆ R) : Refers R (collectParameters c path shared own) := by
  refine .bind (resolveParameters_refers hc hshared) fun _ => ?_
  exact .bind (resolveParameters_refers hc hown) fun _ => nofun

private theorem path_mem_bodyReferences {body : OrReference ApiBody} {path : String}
    (h : path ∈ body.path?.toList) : path ∈ bodyReferences body := by
  cases body with
  | reference => simpa [OrReference.path?, bodyReferences] using h
  | object => simp [OrReference.path?] at h

private theorem bodyOf_refers (hc : c.references ⊆ R) (hop : op.references ⊆ R) :
    Refers R (c.bodyOf op) := by
  unfold ApiComponents.bodyOf
  split
  · exact nofun
  · next body hbody =>
    refine .bind (fun f h => ?_) fun _ => nofun
    refine (resolveIn_error h).mono (List.append_subset.2 ⟨fun path hpath => ?_, fun path hpath => ?_⟩)
    · refine hop (List.mem_append_right _ (List.mem_flatMap.2 ⟨body, by simp [hbody], ?_⟩))
      exact path_mem_bodyReferences hpath
    · obtain ⟨entry, hentry, hpath⟩ := List.mem_flatMap.1 hpath
      refine hc (List.mem_append_right _ (List.mem_flatMap.2 ⟨entry, hentry, ?_⟩))
      exact path_mem_bodyReferences hpath

theorem ApiComponents.bodyOf_mem {body : ApiBody} (h : c.bodyOf op = .ok (some body)) :
    op.requestBody = some (.object body) ∨ ∃ name, (name, .object body) ∈ c.requestBodies := by
  unfold ApiComponents.bodyOf at h
  split at h
  · cases h
  · next value hvalue =>
    unfold ApiComponents.resolveBody at h
    cases hres : resolveIn "requestBodies" OrReference.path? c.requestBodies
        (c.requestBodies.length + 1) value with
    | error f =>
      rw [hres] at h
      cases h
    | ok target? =>
      rw [hres] at h
      match target? with
      | none | some (.reference _) => cases h
      | some (.object _) =>
        cases h
        rcases (resolveIn_ok hres).2 with rfl | ⟨⟨name, _⟩, hentry, rfl⟩
        · exact .inl hvalue
        · exact .inr ⟨name, hentry⟩

theorem bodyReferences_of_bodyOf (hc : c.references ⊆ R) (hop : op.references ⊆ R)
    {body : ApiBody} (h : c.bodyOf op = .ok (some body)) : bodyReferences (.object body) ⊆ R := by
  intro path hpath
  rcases ApiComponents.bodyOf_mem h with hvalue | ⟨name, hentry⟩
  · refine hop (List.mem_append_right _ (List.mem_flatMap.2 ⟨_, ?_, hpath⟩))
    simp [hvalue]
  · exact hc (List.mem_append_right _ (List.mem_flatMap.2 ⟨_, hentry, hpath⟩))

private theorem describeBody_ends (hc : c.references ⊆ R) (hop : op.references ⊆ R)
    (hs : s.InRange) : Ends (MalformedIn R) (describeBody c op) s fun body s' =>
      DescribesBody c op s body s' := by
  unfold describeBody
  cases hbody : op.requestBody with
  | none =>
    have hbodyOf : c.bodyOf op = .ok none := by simp only [ApiComponents.bodyOf, hbody]; rfl
    exact .pure (.missing hbodyOf)
  | some value =>
    have hbodyOf : c.bodyOf op = c.resolveBody value := by simp only [ApiComponents.bodyOf, hbody]
    refine .lift_cases (hbodyOf ▸ bodyOf_refers hc hop) fun body? hresolve => ?_
    rw [← hbodyOf] at hresolve
    match body? with
    | none => exact .pure (.missing hresolve)
    | some ⟨[]⟩ => exact .pure (.empty hresolve)
    | some ⟨(contentType, none) :: rest⟩ =>
      refine .bind (M := fun id t => id = s.next ∧ t = s.push (.unknown "unspecified")) ⟨rfl, rfl⟩ ?_
      rintro _ _ ⟨rfl, rfl⟩
      exact .pure (.unspecified hresolve rfl)
    | some ⟨(contentType, some schema) :: rest⟩ =>
      have hschema : schema.references ⊆ R := fun path hpath =>
        bodyReferences_of_bodyOf hc hop hresolve (by simp [bodyReferences, hpath])
      have hschemas : c.schemaReferences ⊆ R := fun path hpath =>
        hc (List.mem_append_left _ (List.mem_append_left _ hpath))
      refine .bind (Lowering.lowerSchema_ends hschema hschemas hs) fun id s' hrun => ?_
      exact .pure (.schema hresolve hrun)

private theorem describeOperation_ends [Spelling] {api : Api} {path verb : String}
    (hc : api.components.references ⊆ R)
    (hshared : parameterReferences (api.sharedParameters path) ⊆ R) (hop : op.references ⊆ R)
    (hs : s.InRange) : Ends (MalformedIn R) (describeOperation api path verb op) s
      fun operation s' => DescribesBody api.components op s operation.body s' := by
  have hown : parameterReferences op.parameters ⊆ R := fun p hp => hop (List.mem_append_left _ hp)
  refine .lift_cases (collectParameters_refers hc path hshared hown) fun parameters _ => ?_
  exact .bind (describeBody_ends hc hop hs) fun _ _ h => .pure h

theorem references_of_mem_operations {api : Api} {path verb : String}
    (h : (path, verb, op) ∈ api.operations) : op.references ⊆ api.references := by
  obtain ⟨⟨_, item⟩, hitem, hop⟩ := List.mem_flatMap.1 h
  obtain ⟨⟨_, op'⟩, hmem, heq⟩ := List.mem_map.1 hop
  cases heq
  intro text htext
  refine List.mem_append_right _ (List.mem_flatMap.2 ⟨_, hitem, List.mem_append_right _ ?_⟩)
  exact List.mem_flatMap.2 ⟨_, hmem, htext⟩

private theorem references_of_sharedParameters (api : Api) (path : String) :
    parameterReferences (api.sharedParameters path) ⊆ api.references := by
  unfold Api.sharedParameters
  cases hlookup : api.paths.lookup path with
  | none => simp [parameterReferences]
  | some item =>
    obtain ⟨before, after, heq, _⟩ := List.lookup_eq_some_iff.1 hlookup
    intro text htext
    have hitem : (path, item) ∈ api.paths := by simp [heq]
    exact List.mem_append_right _ (List.mem_flatMap.2 ⟨_, hitem, List.mem_append_left _ htext⟩)

/-- All requests are described, unless one of the references is malformed. -/
private theorem describeOperations_ends [Spelling] (api : Api) : Ends (MalformedIn api.references)
    (describeOperations api) .initial fun operations s' =>
      DescribesAll api.components (api.operations.map (·.2.2)) .initial (operations.map (·.body))
        s' := by
  have hall (entries : List (String × String × ApiOperation)) (hsub : entries ⊆ api.operations)
      (s : LoweringState) (hs : s.InRange) : Ends (MalformedIn api.references)
      (entries.mapM fun entry => describeOperation api entry.1 entry.2.1 entry.2.2) s
      fun operations s' => DescribesAll api.components (entries.map (·.2.2)) s
        (operations.map (·.body)) s' := by
    induction entries generalizing s with
    | nil => exact .pure .nil
    | cons entry entries ih =>
      obtain ⟨hentry, hrest⟩ := List.cons_subset.1 hsub
      rw [List.mapM_cons]
      refine .bind (describeOperation_ends (List.subset_append_left _ _)
        (references_of_sharedParameters api entry.1) (references_of_mem_operations hentry) hs) ?_
      intro operation s₁ hbody
      refine .bind (ih hrest s₁ (hbody.inRange hs).2.1) fun operations s₂ hbodies => ?_
      exact .pure (.cons hbody hbodies)
  exact hall api.operations (List.Subset.refl _) .initial .initial

/-- A source that the bodies of an API have led to. -/
structure Api.LeadsTo (api : Api) (source : Source) (s : LoweringState) : Prop where
  types : source.types = s.graph
  pointers : source.pointers = s.pointers
  bodies : ∃ service, source.services = [service] ∧
    DescribesAll api.components (api.operations.map (·.2.2)) .initial
      (service.operations.map (·.body)) s

theorem Api.source_cases [Spelling] (api : Api) :
    (∃ source s, api.source = .ok source ∧ api.LeadsTo source s) ∨
    ∃ f, api.source = .error f ∧ MalformedIn api.references f := by
  have h := describeOperations_ends api
  unfold Ends at h
  unfold Api.source
  split at h
  · next operations s hrun =>
    rw [hrun]
    exact .inl ⟨_, s, rfl, rfl, rfl, _, rfl, h⟩
  · next f _ hrun =>
    rw [hrun]
    exact .inr ⟨f, rfl, h⟩

theorem Api.LeadsTo.inRange {api : Api} {source : Source} {s : LoweringState}
    (h : api.LeadsTo source s) : source.InRange := by
  obtain ⟨service, hservices, hrun⟩ := h.bodies
  obtain ⟨_, hs, hhas⟩ := hrun.inRange .initial
  constructor
  · rw [h.types]
    exact hs.closed
  · intro service' hmem op hop b hb
    rw [hservices, List.mem_singleton] at hmem
    subst hmem
    rw [h.types]
    exact hhas op.body (List.mem_map.2 ⟨op, hop, rfl⟩) b hb

theorem Api.leadsTo_of_source [Spelling]
    {api : Api} {source : Source} (h : api.source = .ok source) :
    ∃ s, api.LeadsTo source s := by
  rcases api.source_cases with ⟨source', s, hsource, hleads⟩ | ⟨f, hfault, -⟩
  · cases h.symm.trans hsource
    exact ⟨s, hleads⟩
  · cases h.symm.trans hfault

theorem Api.inRange_of_source [Spelling]
    {api : Api} {source : Source} (h : api.source = .ok source) :
    source.InRange := by
  obtain ⟨s, hleads⟩ := leadsTo_of_source h
  exact hleads.inRange

theorem Api.exists_service_of_source [Spelling]
    {api : Api} {source : Source} (h : api.source = .ok source) :
    ∃ service, source.services = [service] := by
  obtain ⟨s, hleads⟩ := leadsTo_of_source h
  obtain ⟨service, hservices, -⟩ := hleads.bodies
  exact ⟨service, hservices⟩

/-- From every API a source is made and output is generated, whatever the options, unless one of its
references does not have the form of a reference; then that is the fault. -/
theorem Api.generates_or_malformed [Spelling] (api : Api) (options : GenerateOptions) :
    (∃ source output, api.source = .ok source ∧ generate source options = .ok output) ∨
      ∃ text ∈ api.references, Reference.parse? text = none ∧
        api.source = .error (.malformedReference text) := by
  rcases api.source_cases with ⟨source, s, hsource, hleads⟩ | ⟨f, hsource, text, hmem, hparse, rfl⟩
  · obtain ⟨output, houtput, _⟩ := generate_ok hleads.inRange options
    exact .inl ⟨source, output, hsource, houtput⟩
  · exact .inr ⟨text, hmem, hparse, hsource⟩

end RequestDocs.OpenApi
