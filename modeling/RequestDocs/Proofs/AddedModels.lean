import RequestDocs.Proofs.Accounts
/-!
# Models on top of documents

Models only add to a generation. The documents of a service are made before its models and are the
same without them, and what draining the models adds to the statistics is their number and warnings
of their own.
-/

namespace RequestDocs

open Run

variable {source : Source} {options : GenerateOptions} {service : Service}

/-- Documents are made in the same way with models and without. -/
theorem generateDocuments_emitModels [Spelling]
    (g : TypeGraph) (options : GenerateOptions) (emit : Bool)
    (service : Service) (used : List String) (ops : List Operation) :
    generateDocuments g { options with emitModels := emit } service used ops =
      generateDocuments g options service used ops := by
  induction ops generalizing used with
  | nil => rfl
  | cons op ops ih =>
    have hreason : GenerateOptions.exclusionReason { options with emitModels := emit } op.name =
        options.exclusionReason op.name := rfl
    simp only [generateDocuments, hreason, ih]

/-- The warnings of a service: those given before its documents are finished, and those that draining
its models adds. -/
def Source.Warns [Spelling] (source : Source) (options : GenerateOptions) (service : Service)
    (documents models : List Warning) : Prop :=
  ∀ stats, ∃ files drained s t,
    generateDocuments source.types options service [] service.operations
      (.start stats.recordService) = .ok files s ∧
    s.stats.warnings = stats.warnings ++ documents ∧
    drain source.types options.assembly.maxDepth s = .ok drained t ∧
    t.stats.warnings = s.stats.warnings ++ models ∧
    generateService source { options with emitModels := true } service (.start stats) =
      .ok (source.output service files drained) t

theorem Source.Warns.of_run [Spelling]
    {documents : List DocumentFile} {models : List (TypeId × Model)}
    {s t : RunState} {warnings : List Warning}
    (hdocuments : generateDocuments source.types options service [] service.operations
      (.start Stats.zero.recordService) = .ok documents s)
    (hdrain : drain source.types options.assembly.maxDepth s = .ok models t)
    (hwarnings : t.stats.warnings = s.stats.warnings ++ warnings) :
    source.Warns options service s.stats.warnings warnings := by
  intro stats
  have hstart : RunState.start stats.recordService =
      (RunState.start Stats.zero.recordService).after stats := by
    have hadds := Stats.adds_recordService stats .zero
    rw [Stats.add_zero] at hadds
    simp only [RunState.start, RunState.after, hadds]
  have hdocuments' : generateDocuments source.types options service [] service.operations
      (.start stats.recordService) = .ok documents (s.after stats) := by
    rw [hstart, generateDocuments_additive _ _ _ _ _ stats, hdocuments]
    rfl
  have hdrain' : drain source.types options.assembly.maxDepth (s.after stats) =
      .ok models (t.after stats) := by
    rw [drain_additive _ _ stats, hdrain]
    rfl
  have hfull : generateDocuments source.types { options with emitModels := true } service []
      service.operations (.start stats.recordService) = .ok documents (s.after stats) := by
    rw [generateDocuments_emitModels]
    exact hdocuments'
  refine ⟨documents, models, s.after stats, t.after stats, hdocuments', rfl, hdrain', ?_,
    generateService_eq_models rfl hfull hdrain'⟩
  simp only [RunState.after, Stats.add, hwarnings, List.append_assoc]

structure ServicePair where
  plain : ServiceOutput × Stats
  full : ServiceOutput × Stats
  drained : List Warning

/-- Both come from generating the service by itself, and differ by models and what is counted and
warned of for these. -/
structure ServicePair.Generated [Spelling]
    (source : Source) (options : GenerateOptions) (service : Service)
    (pair : ServicePair) : Prop where
  plain : GeneratesAlone source { options with emitModels := false } service pair.plain
  full : GeneratesAlone source { options with emitModels := true } service pair.full
  name : pair.full.1.name = pair.plain.1.name
  documents : pair.full.1.documents = pair.plain.1.documents
  counted : pair.plain.2.modelsGenerated = 0
  added : ∃ count, pair.full.2 = pair.plain.2.add ⟨0, 0, 0, 0, count, pair.drained⟩
  warns : source.Warns options service pair.plain.2.warnings pair.drained

theorem Source.InRange.generated_pair [Spelling] (h : source.InRange) (options : GenerateOptions)
    (hservice : service ∈ source.services) :
    ∃ pair, ServicePair.Generated source options service pair := by
  obtain ⟨documents, models, t, hfull⟩ := h.runs { options with emitModels := true } hservice .zero
  obtain ⟨s, hdocuments, hdrain⟩ := hfull.drained rfl
  rw [generateDocuments_emitModels] at hdocuments
  have hplain : generateService source { options with emitModels := false } service (.start .zero) =
      .ok (source.output service documents []) s := by
    apply generateService_eq_documents rfl
    rw [generateDocuments_emitModels]
    exact hdocuments
  obtain ⟨part, hpart, haccounts⟩ :=
    (generateDocuments_accounts source.types options service [] service.operations _).of_ok hdocuments
  obtain ⟨_, hadded, warnings, rfl, -⟩ := (drain_contributes _ _ s).of_ok hdrain
  have hcounted : s.stats.modelsGenerated = 0 := by
    rw [hpart, Stats.add, haccounts.models]
    rfl
  have hwarnings : t.stats.warnings = s.stats.warnings ++ warnings := by
    rw [hadded, Stats.add]
  exact ⟨⟨(source.output service documents [], s.stats), (source.output service documents models, t.stats),
      warnings⟩, ⟨⟨s, hplain, rfl⟩, List.nodup_nil⟩, .of_run hfull, rfl, rfl, hcounted,
    ⟨_, hadded⟩, .of_run hdocuments hdrain hwarnings⟩

variable {services : List Service} {pairs : List ServicePair}

theorem filter_documents_pairs [Spelling]
    (h : List.Forall₂ (ServicePair.Generated source options) services pairs) (label : String) :
    (pairs.flatMap fun pair => Layout.serviceFiles label pair.full.1).filter
        (·.endsIn Document.extension) =
      (pairs.flatMap fun pair => Layout.serviceFiles label pair.plain.1).filter
        (·.endsIn Document.extension) := by
  induction h with
  | nil => rfl
  | cons hfirst _ ih =>
    simp only [List.flatMap_cons, List.filter_append, ih, Layout.filter_documents, hfirst.name,
      hfirst.documents]

theorem total_pairs [Spelling]
    (h : List.Forall₂ (ServicePair.Generated source options) services pairs) :
    (Stats.total (pairs.map (·.full.2))).warnings =
        pairs.flatMap (fun pair => pair.plain.2.warnings ++ pair.drained) ∧
      Stats.total (pairs.map (·.plain.2)) = { Stats.total (pairs.map (·.full.2)) with
        modelsGenerated := 0
        warnings := pairs.flatMap (·.plain.2.warnings) } := by
  induction h with
  | nil => exact ⟨rfl, rfl⟩
  | cons hfirst _ ih =>
    obtain ⟨hwarnings, hplain⟩ := ih
    obtain ⟨count, hadded⟩ := hfirst.added
    have hcounted := hfirst.counted
    constructor
    · simp only [List.map_cons, Stats.total_cons, List.flatMap_cons, Stats.add, hadded, hwarnings]
    · simp only [List.map_cons, Stats.total_cons, List.flatMap_cons, Stats.add, hadded, hplain,
        hcounted, Nat.add_zero]

/-- With models, the documents are the same files in the same order as without, and the statistics
differ only by the number of models and by the warnings from draining them. -/
theorem Source.InRange.models_only_add [Spelling] (h : source.InRange) (options : GenerateOptions) :
    ∃ files stats files' stats',
      generate source { options with emitModels := true } = .ok (files, stats) ∧
      generate source { options with emitModels := false } = .ok (files', stats') ∧
      files.filter (·.endsIn Document.extension) = files'.filter (·.endsIn Document.extension) ∧
      ∃ parts : List (List Warning × List Warning),
        List.Forall₂ (fun service part => source.Warns options service part.1 part.2)
          source.services parts ∧
        stats.warnings = parts.flatMap (fun part => part.1 ++ part.2) ∧
        stats' = { stats with modelsGenerated := 0, warnings := parts.flatMap Prod.fst } := by
  obtain ⟨pairs, hpairs⟩ := exists_forall₂ source.services fun _ => h.generated_pair options
  have hfull : List.Forall₂ (GeneratesAlone source { options with emitModels := true })
      source.services (pairs.map (·.full)) :=
    List.forall₂_map_right_iff.2 (hpairs.imp fun _ _ hpair => hpair.full)
  have hplain : List.Forall₂ (GeneratesAlone source { options with emitModels := false })
      source.services (pairs.map (·.plain)) :=
    List.forall₂_map_right_iff.2 (hpairs.imp fun _ _ hpair => hpair.plain)
  have hwarns : List.Forall₂ (fun service part => source.Warns options service part.1 part.2)
      source.services (pairs.map fun pair => (pair.plain.2.warnings, pair.drained)) :=
    List.forall₂_map_right_iff.2 (hpairs.imp fun _ _ hpair => hpair.warns)
  obtain ⟨hwarnings, hstats⟩ := total_pairs hpairs
  refine ⟨_, _, _, _, generate_eq hfull, generate_eq hplain, ?_, _, hwarns, ?_, ?_⟩
  · simpa [List.flatMap_map] using filter_documents_pairs hpairs options.sourceLabel
  · simpa [List.flatMap_map, Function.comp_def] using hwarnings
  · simpa [List.flatMap_map, Function.comp_def] using hstats

attribute [local instance] Spelling.plain

theorem petSource_models_only_add :
    petSource.InRange ∧ ∃ files stats files' stats',
      generate petSource { petModels with emitModels := true } = .ok (files, stats) ∧
      generate petSource { petModels with emitModels := false } = .ok (files', stats') ∧
      files.filter (·.endsIn Document.extension) = files'.filter (·.endsIn Document.extension) ∧
      ∃ parts : List (List Warning × List Warning),
        List.Forall₂ (fun service part => petSource.Warns petModels service part.1 part.2)
          petSource.services parts ∧
        stats.warnings = parts.flatMap (fun part => part.1 ++ part.2) ∧
        stats' = { stats with modelsGenerated := 0, warnings := parts.flatMap Prod.fst } :=
  ⟨petSource_inRange, petSource_inRange.models_only_add petModels⟩

end RequestDocs
