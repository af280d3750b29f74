import RequestDocs.Proofs.Composition
import RequestDocs.Proofs.FileKinds
/-!
# Accounts

The figures of a generation account for its operations and files. Every step of a run adds a part to
the statistics, and the parts of a run add up to figures of all that it went through.
-/

namespace RequestDocs

namespace Warning

def isSkippedOperation : Warning → Bool
  | skippedOperation .. => true
  | _ => false

/-- Whether a comment stands in the place of a body. -/
def isPlaceholder : Warning → Bool
  | unsupportedBody .. => true
  | nonJsonBody .. => true
  | missingBodyModel .. => true
  | _ => false

def isIssue : Warning → Bool
  | unrepresentableUnion .. => true
  | unmappedScalar .. => true
  | _ => false

theorem isIssue_ofIssue (name : String) (issue : Issue) : (ofIssue name issue).isIssue = true := by
  cases issue <;> rfl

theorem isSkippedOperation_issue (w : Warning) (h : w.isIssue = true) :
    w.isSkippedOperation = false := by
  cases w <;> first | rfl | cases h

theorem isPlaceholder_issue (w : Warning) (h : w.isIssue = true) : w.isPlaceholder = false := by
  cases w <;> first | rfl | cases h

theorem countP_issues {kind : Warning → Bool} (hkind : ∀ w, w.isIssue = true → kind w = false)
    {warnings : List Warning} (h : ∀ w ∈ warnings, w.isIssue = true) : warnings.countP kind = 0 := by
  apply List.countP_eq_zero.2
  intro w hw
  simp [hkind w (h w hw)]

end Warning

def GenerateOptions.wants (options : GenerateOptions) (op : Operation) : Bool :=
  options.only.all (·.contains op.name) && !options.exclude.any (·.contains op.name)

theorem GenerateOptions.exclusionReason_eq_none_iff (options : GenerateOptions) (op : Operation) :
    options.exclusionReason op.name = none ↔ options.wants op = true := by
  have honly : (options.only.map fun names => !names.contains op.name).getD false =
      !options.only.all (·.contains op.name) := by
    cases options.only <;> rfl
  have hexclude : (options.exclude.map fun names => names.contains op.name).getD false =
      options.exclude.any (·.contains op.name) := by
    cases options.exclude <;> rfl
  rw [exclusionReason, honly, hexclude, wants]
  cases options.only.all (·.contains op.name) <;>
    cases options.exclude.any (·.contains op.name) <;> simp

def GenerateOptions.wantsBare (options : GenerateOptions) (op : Operation) : Bool :=
  options.wants op && !op.effectiveVerb.carriesPayload

/-- What figures and warnings tell of services, operations, documents and models. -/
structure Stats.Accounts (stats : Stats) (options : GenerateOptions) (serviceCount : Nat)
    (ops : List Operation) (documentCount modelCount : Nat) : Prop where
  services : stats.services = serviceCount
  seen : stats.operationsSeen = ops.length
  wanted : stats.documentsGenerated = ops.countP options.wants
  documents : stats.documentsGenerated = documentCount
  skipped : stats.operationsSeen =
    stats.documentsGenerated + stats.warnings.countP Warning.isSkippedOperation
  bodies : stats.documentsGenerated = stats.bodiesSynthesized +
    stats.warnings.countP Warning.isPlaceholder + ops.countP options.wantsBare
  models : stats.modelsGenerated = modelCount

/-- The statistics of models: how many they are, and the issues met in their samples. -/
def Stats.OfModels (stats : Stats) (count : Nat) : Prop :=
  ∃ warnings, stats = ⟨0, 0, 0, 0, count, warnings⟩ ∧ ∀ w ∈ warnings, w.isIssue = true

namespace Stats

variable {options : GenerateOptions} {p q : Stats} {ops ops' : List Operation} {n n' d d' m m' : Nat}

theorem Accounts.zero (options : GenerateOptions) : Stats.zero.Accounts options 0 [] 0 0 := by
  constructor <;> rfl

theorem Accounts.add (h : p.Accounts options n ops d m) (h' : q.Accounts options n' ops' d' m') :
    (p.add q).Accounts options (n + n') (ops ++ ops') (d + d') (m + m') := by
  obtain ⟨hservices, hseen, hwanted, hdocuments, hskipped, hbodies, hmodels⟩ := h
  obtain ⟨hservices', hseen', hwanted', hdocuments', hskipped', hbodies', hmodels'⟩ := h'
  constructor <;> simp only [Stats.add, List.length_append, List.countP_append] <;> omega

theorem Accounts.documents_le (h : p.Accounts options n ops d m) :
    p.documentsGenerated ≤ p.operationsSeen := by
  have hskipped := h.skipped
  omega

theorem Accounts.skipped_eq (h : p.Accounts options n ops d m) :
    p.skipped = p.warnings.countP Warning.isSkippedOperation := by
  have hskipped := h.skipped
  unfold Stats.skipped
  omega

theorem OfModels.zero : Stats.zero.OfModels 0 := ⟨[], rfl, by simp⟩

theorem OfModels.add (h : p.OfModels m) (h' : q.OfModels m') : (p.add q).OfModels (m + m') := by
  obtain ⟨warnings, rfl, hissues⟩ := h
  obtain ⟨warnings', rfl, hissues'⟩ := h'
  exact ⟨warnings ++ warnings', rfl, List.forall_mem_append.2 ⟨hissues, hissues'⟩⟩

theorem OfModels.accounts (h : p.OfModels m) (options : GenerateOptions) :
    p.Accounts options 0 [] 0 m := by
  obtain ⟨warnings, rfl, hissues⟩ := h
  have hskipped := Warning.countP_issues Warning.isSkippedOperation_issue hissues
  have hplaceholder := Warning.countP_issues Warning.isPlaceholder_issue hissues
  constructor <;> simp only [hskipped, hplaceholder] <;> rfl

/-- The statistics of the document of an operation. Its body has no place exactly if the verb carries
no payload. -/
def OfDocument (stats : Stats) (op : Operation) : Prop :=
  ∃ status error issues, (status = .notApplicable ↔ op.effectiveVerb.carriesPayload = false) ∧
    stats = (Stats.zero.recordDocument op.name status error op.path).recordIssues op.name issues

theorem isIssue_recorded (name : String) (issues : List Issue) :
    ∀ w ∈ issues.map (.ofIssue name), Warning.isIssue w = true := by
  intro w hw
  obtain ⟨issue, -, rfl⟩ := List.mem_map.1 hw
  exact Warning.isIssue_ofIssue name issue

theorem ofModels_recordIssues (name : String) (issues : List Issue) :
    (Stats.zero.recordIssues name issues).OfModels 0 :=
  ⟨_, rfl, isIssue_recorded name issues⟩

theorem countP_statusWarning (operation : String) (status : BodyStatus) :
    (if status = .synthesized then 1 else 0) +
      (statusWarning operation status).countP Warning.isPlaceholder +
      (if status = .notApplicable then 1 else 0) = 1 := by
  cases status <;> rfl

theorem countP_statusWarning_skipped (operation : String) (status : BodyStatus) :
    (statusWarning operation status).countP Warning.isSkippedOperation = 0 := by
  cases status <;> rfl

theorem countP_templateWarning {kind : Warning → Bool}
    (hkind : ∀ path error, kind (.malformedPathTemplate path error) = false) (path : String)
    (error : Option TemplateError) : (templateWarning path error).countP kind = 0 := by
  cases error <;> simp [templateWarning, hkind]

theorem OfDocument.accounts {op : Operation} (h : p.OfDocument op) (hop : options.wants op = true) :
    p.Accounts options 0 [op] 1 0 := by
  obtain ⟨status, error, issues, hstatus, rfl⟩ := h
  have hissues := isIssue_recorded op.name issues
  have hwarnings (kind : Warning → Bool) :
      ((Stats.zero.recordDocument op.name status error op.path).recordIssues op.name
        issues).warnings.countP kind = (statusWarning op.name status).countP kind +
          (templateWarning op.path error).countP kind +
          (issues.map (Warning.ofIssue op.name)).countP kind := by
    simp only [recordIssues, recordDocument, recordWarnings, Stats.zero, List.nil_append,
      List.countP_append]
  have hbare : [op].countP options.wantsBare = if status = .notApplicable then 1 else 0 := by
    simp [GenerateOptions.wantsBare, hop, hstatus]
  constructor
  · rfl
  · rfl
  · simp [recordIssues, recordDocument, recordWarnings, Stats.zero, hop]
  · rfl
  · rw [hwarnings, countP_statusWarning_skipped, countP_templateWarning fun _ _ => rfl,
      Warning.countP_issues Warning.isSkippedOperation_issue hissues]
    rfl
  · have hcount := countP_statusWarning op.name status
    rw [hwarnings, hbare, countP_templateWarning fun _ _ => rfl,
      Warning.countP_issues Warning.isPlaceholder_issue hissues]
    simp only [recordIssues, recordDocument, recordWarnings, Stats.zero]
    omega
  · rfl

theorem accounts_recordSkipped {op : Operation} (reason : String) (hop : ¬options.wants op = true) :
    (Stats.zero.recordSkipped op.name reason).Accounts options 0 [op] 0 0 := by
  have hbare : ¬options.wantsBare op = true := by simp [GenerateOptions.wantsBare, hop]
  constructor <;> simp [recordSkipped, recordWarnings, Stats.zero, Warning.isSkippedOperation,
    Warning.isPlaceholder, hop, hbare]

theorem OfDocument.ofService {op : Operation} {service : Service}
    (h : p.OfDocument (op.inService service)) : p.OfDocument op := by
  unfold Operation.inService at h
  split at h
  · exact h
  · exact h

end Stats

namespace Run

variable {α β : Type}

/-- Wherever the step starts, it adds a part to the statistics that goes with its result. -/
def Contributes (step : Run α) (account : α → Stats → Prop) : Prop :=
  ∀ s, Ends (fun _ => True) step s fun a t => ∃ part, t.stats = s.stats.add part ∧ account a part

namespace Contributes

variable {step : Run α} {next : α → Run β} {account : α → Stats → Prop} {account' : β → Stats → Prop}

theorem pure {a : α} (h : account a .zero) : Contributes (Pure.pure a) account :=
  fun s => ⟨.zero, s.stats.add_zero.symm, h⟩

theorem bind (h : Contributes step account) (hnext : ∀ a part, account a part →
    Contributes (next a) fun b rest => account' b (part.add rest)) :
    Contributes (step >>= next) account' := by
  intro s
  apply Ends.bind (h s)
  rintro a t ⟨part, hpart, haccount⟩
  apply Ends.mono (hnext a part haccount t)
  rintro b u ⟨rest, hrest, haccount'⟩
  exact ⟨part.add rest, by rw [hrest, hpart, Stats.add_assoc], haccount'⟩

theorem mono {account' : α → Stats → Prop} (h : Contributes step account)
    (hmono : ∀ a part, account a part → account' a part) : Contributes step account' := by
  intro s
  apply Ends.mono (h s)
  rintro a t ⟨part, hpart, haccount⟩
  exact ⟨part, hpart, hmono a part haccount⟩

theorem get_bind {next : RunState → Run β} (h : ∀ s, Contributes (next s) account') :
    Contributes (get >>= next) account' :=
  fun s => Ends.get_bind (h s s)

theorem lift (x : Except Fault α) : Contributes (liftFault x) fun _ part => part = .zero := by
  intro s
  cases x with
  | ok a => exact ⟨.zero, s.stats.add_zero.symm, rfl⟩
  | error => trivial

theorem record {change : Stats → Stats} (h : Stats.Adds change) :
    Contributes (Run.record change) fun _ part => part = change .zero := by
  intro s
  have hadds := h s.stats .zero
  rw [Stats.add_zero] at hadds
  exact ⟨_, hadds, rfl⟩

theorem synthesis {step : Synthesis α} {P : α → Prop}
    (h : ∀ s, Ends (fun _ => True) step s fun a _ => P a) :
    Contributes (Run.synthesis step) fun result part => P result.1 ∧ part = .zero := by
  intro s
  have hstep := h ⟨s.registry, s.queue, []⟩
  unfold Ends Run.synthesis
  unfold Ends at hstep
  cases hs : step ⟨s.registry, s.queue, []⟩ with
  | ok a t =>
    rw [hs] at hstep
    exact ⟨.zero, s.stats.add_zero.symm, hstep, rfl⟩
  | error => trivial

end Contributes

theorem bodySection_status [Spelling]
    (op : Operation) (g : TypeGraph) (maxDepth : Nat) (s : SynthesisState) :
    Ends (fun _ => True) (op.bodySection g maxDepth) s fun body _ =>
      (body.2 = .notApplicable ↔ op.effectiveVerb.carriesPayload = false) := by
  cases hroot : op.sampledType? with
  | some root =>
    rw [Operation.bodySection_of_sampledType hroot]
    apply Ends.bind (.anyhow _ s)
    intro lines t _
    apply Ends.pure
    have hpayload : op.effectiveVerb.carriesPayload = true := by
      unfold Operation.sampledType? at hroot
      split at hroot
      · assumption
      · cases hroot
    simp [hpayload]
  | none =>
    rw [Operation.bodySection_of_placeholder hroot]
    apply Ends.pure
    unfold Operation.placeholder
    by_cases hpayload : op.effectiveVerb.carriesPayload = true
    · cases op.body with
      | none => simp [hpayload]
      | some body => by_cases hkind : body.kind = .single <;> simp [hpayload, hkind]
    · simp [hpayload]

variable (g : TypeGraph) (maxDepth : Nat)

theorem assemble_contributes [Spelling] (options : AssemblyOptions) (op : Operation) :
    Contributes (assemble g options op) fun _ part => part.OfDocument op := by
  have hassemble (s : SynthesisState) : Ends (fun _ => True) (RequestDocs.assemble g options op) s
      fun document _ => document.operation = op.name ∧
        (document.bodyStatus = .notApplicable ↔ op.effectiveVerb.carriesPayload = false) := by
    rw [op.assemble_eq]
    apply Ends.bind (bodySection_status op g options.maxDepth s)
    intro body t hstatus
    exact .pure ⟨rfl, hstatus⟩
  apply Contributes.bind (.synthesis hassemble)
  rintro ⟨document, issues⟩ part ⟨⟨hname, hstatus⟩, hpart⟩
  change document.operation = op.name at hname
  apply Contributes.bind (.record (Stats.adds_recordDocument _ _ _ _))
  intro _ part' hpart'
  apply Contributes.bind (.record (Stats.adds_recordWarnings _))
  intro _ part'' hpart''
  apply Contributes.pure
  subst hpart hpart' hpart''
  refine ⟨document.bodyStatus, document.templateError, issues, hstatus, ?_⟩
  simp [Stats.add, Stats.recordIssues, Stats.recordDocument, Stats.recordWarnings, Stats.zero, hname]

private theorem bind_ofModels {α β : Type} {step : Run α} {next : α → Run β} {count : β → Nat}
    (h : Contributes step fun _ part => part.OfModels 0)
    (hnext : ∀ a, Contributes (next a) fun b part => part.OfModels (count b)) :
    Contributes (step >>= next) fun b part => part.OfModels (count b) := by
  apply Contributes.bind h
  intro a part hpart s
  apply Ends.mono (hnext a s)
  rintro b t ⟨rest, hrest, hmodels⟩
  refine ⟨rest, hrest, ?_⟩
  simpa using hpart.add hmodels

private theorem nameFor_contributes [Spelling] (id : TypeId) (hint : String) :
    Contributes (nameFor g id hint) fun _ part => part.OfModels 0 := by
  intro s
  apply Ends.get_bind
  apply Ends.lift_cases
  · intro f _
    trivial
  · intro named _
    exact ⟨.zero, s.stats.add_zero.symm, .zero⟩

private theorem nameDependency_contributes [Spelling] (model : String) (id : TypeId) :
    Contributes (nameDependency g model id) fun _ part => part.OfModels 0 := by
  apply bind_ofModels (nameFor_contributes g id _)
  intro name s
  exact ⟨.zero, s.stats.add_zero.symm, .zero⟩

private theorem nameDependencies_contributes [Spelling] (model : String) (ids : List TypeId) :
    Contributes (ids.mapM (nameDependency g model)) fun _ part => part.OfModels 0 := by
  induction ids with
  | nil => exact .pure .zero
  | cons id ids ih =>
    rw [List.mapM_cons]
    apply bind_ofModels (nameDependency_contributes g model id)
    intro name
    apply bind_ofModels ih
    intro names
    exact .pure .zero

theorem model_contributes [Spelling] (id : TypeId) :
    Contributes (model g maxDepth id) fun _ part => part.OfModels 0 := by
  have hsample (name : String) : Contributes (synthesis (Synthesis.synthesize g maxDepth name id))
      fun _ part => part.OfModels 0 := by
    apply Contributes.mono (.synthesis fun s => .anyhow _ s)
    rintro _ part ⟨-, rfl⟩
    exact .zero
  apply bind_ofModels (nameFor_contributes g id _)
  intro name
  apply bind_ofModels (hsample name)
  intro ⟨lines, issues⟩
  apply bind_ofModels (.mono (.record (Stats.adds_recordWarnings _)) ?_)
  · intro _
    apply bind_ofModels (.mono (.lift _) ?_)
    · intro nested
      apply bind_ofModels (nameDependencies_contributes g name nested)
      intro dependencies
      exact .pure .zero
    · rintro _ part rfl
      exact .zero
  · rintro _ part rfl
    exact Stats.ofModels_recordIssues name issues

theorem drainQueue_contributes [Spelling] (fuel : Nat) :
    Contributes (drainQueue g maxDepth fuel) fun _ part => part.OfModels 0 := by
  induction fuel with
  | zero => exact fun _ => trivial
  | succ fuel ih =>
    have hdequeue : Contributes dequeue fun _ part => part.OfModels 0 :=
      fun s => ⟨.zero, s.stats.add_zero.symm, .zero⟩
    apply bind_ofModels hdequeue
    intro item
    cases item with
    | none => exact .pure .zero
    | some id =>
      apply bind_ofModels (model_contributes g maxDepth id)
      intro m
      apply bind_ofModels ih
      intro models
      exact .pure .zero

/-- A drain adds its models to the statistics, with the issues met in their samples. -/
theorem drain_contributes [Spelling] :
    Contributes (drain g maxDepth) fun models part => part.OfModels models.length := by
  apply Contributes.get_bind
  intro s
  apply Contributes.bind (drainQueue_contributes g maxDepth _)
  intro models part hpart
  apply Contributes.bind (.record (Stats.adds_recordModels _))
  rintro _ _ rfl
  apply Contributes.pure
  obtain ⟨warnings, rfl, hissues⟩ := hpart
  exact ⟨warnings, by simp [Stats.add, Stats.recordModels, Stats.zero], hissues⟩

end Run

open Run

theorem generateDocuments_accounts [Spelling]
    (g : TypeGraph) (options : GenerateOptions) (service : Service)
    (used : List String) (ops : List Operation) :
    Contributes (generateDocuments g options service used ops) fun documents part =>
      part.Accounts options 0 ops documents.length 0 := by
  induction ops generalizing used with
  | nil => exact .pure (.zero options)
  | cons op ops ih =>
    unfold generateDocuments
    split
    · next reason hreason =>
      have hop : ¬options.wants op = true := by
        simp [← options.exclusionReason_eq_none_iff, hreason]
      apply Contributes.bind (.record (Stats.adds_recordSkipped _ _))
      rintro _ _ rfl
      apply Contributes.mono (ih used)
      intro documents part hrest
      simpa using (Stats.accounts_recordSkipped reason hop).add hrest
    · next hreason =>
      have hop : options.wants op = true := (options.exclusionReason_eq_none_iff op).1 hreason
      apply Contributes.bind (assemble_contributes g options.assembly (op.inService service))
      intro document part hpart
      apply Contributes.bind (ih _)
      intro documents rest hrest
      apply Contributes.pure
      simpa [Nat.add_comm] using (hpart.ofService.accounts hop).add hrest

theorem generateService_accounts [Spelling]
    (source : Source) (options : GenerateOptions) (service : Service) :
    Contributes (generateService source options service) fun output part =>
      part.Accounts options 1 service.operations output.documents.length output.models.length := by
  apply Contributes.bind (.record Stats.adds_recordService)
  rintro _ _ rfl
  have hservice : (Stats.zero.recordService).Accounts options 1 [] 0 0 := by
    constructor <;> rfl
  apply Contributes.bind (generateDocuments_accounts _ _ _ _ _)
  intro documents part hdocuments
  have houtput (models : List (TypeId × Model)) (rest : Stats) (hrest : rest.OfModels models.length) :
      (Stats.zero.recordService.add (part.add rest)).Accounts options 1 service.operations
        documents.length (models.map Prod.snd).length := by
    simpa [Stats.add_assoc] using (hservice.add hdocuments).add (hrest.accounts options)
  split
  · apply Contributes.bind (drain_contributes _ _)
    intro models rest hrest
    apply Contributes.pure
    simpa using houtput models rest hrest
  · apply Contributes.pure
    simpa using houtput [] .zero .zero

def Source.operations (source : Source) : List Operation := source.services.flatMap (·.operations)

variable {source : Source} {options : GenerateOptions}

theorem GeneratesAlone.accounts [Spelling] {service : Service} {part : ServiceOutput × Stats}
    (h : GeneratesAlone source options service part) :
    part.2.Accounts options 1 service.operations part.1.documents.length part.1.models.length := by
  obtain ⟨t, hrun, hstats⟩ := h.run
  obtain ⟨added, hadded, haccounts⟩ :=
    (generateService_accounts source options service (.start .zero)).of_ok hrun
  rw [← hstats, hadded]
  simpa [RunState.start] using haccounts

theorem total_accounts [Spelling] {services : List Service} {parts : List (ServiceOutput × Stats)}
    (h : List.Forall₂ (GeneratesAlone source options) services parts) (label : String) :
    (Stats.total (parts.map Prod.snd)).Accounts options services.length
      (services.flatMap (·.operations))
      (((parts.map Prod.fst).flatMap (Layout.serviceFiles label)).countP
        (·.endsIn Document.extension))
      (((parts.map Prod.fst).flatMap (Layout.serviceFiles label)).countP
        (·.endsIn Layout.modelExtension)) := by
  induction h with
  | nil => exact .zero options
  | @cons service part services parts hfirst _ ih =>
    have hall := hfirst.accounts.add ih
    have hdocuments := Layout.countP_documents label part.1
    have hmodels := Layout.countP_models label part.1
    rw [← hdocuments, ← hmodels, ← List.countP_append, ← List.countP_append] at hall
    rw [List.length_cons, Nat.add_comm]
    exact hall

/-- The figures of a generation account for all services, operations, documents and models, and no
more documents are counted than operations. -/
theorem Source.InRange.generate_accounts [Spelling]
    (h : source.InRange) (options : GenerateOptions) :
    Succeeds (generate source options) fun result =>
      result.2.Accounts options source.services.length source.operations
        (result.1.countP (·.endsIn Document.extension))
        (result.1.countP (·.endsIn Layout.modelExtension)) ∧
      result.2.documentsGenerated ≤ result.2.operationsSeen ∧
      result.2.skipped = result.2.warnings.countP Warning.isSkippedOperation := by
  obtain ⟨parts, hparts⟩ := h.generatesAlone options
  have haccounts := total_accounts hparts options.sourceLabel
  exact ⟨_, generate_eq hparts, haccounts, haccounts.documents_le, haccounts.skipped_eq⟩

attribute [local instance] Spelling.plain

theorem petSource_accounts :
    petSource.InRange ∧ Succeeds (generate petSource petModels) fun result =>
      result.2.Accounts petModels petSource.services.length petSource.operations
        (result.1.countP (·.endsIn Document.extension))
        (result.1.countP (·.endsIn Layout.modelExtension)) ∧
      result.2.documentsGenerated ≤ result.2.operationsSeen ∧
      result.2.skipped = result.2.warnings.countP Warning.isSkippedOperation :=
  ⟨petSource_inRange, petSource_inRange.generate_accounts petModels⟩

end RequestDocs
