import RequestDocs.Proofs.Drains
/-!
# Services over closed graphs

Every service of a source in range is generated. Its documents announce the records directly in the
place of the bodies they sample, and some nested in these; they have the names of their operations,
while models have the names of the run.
-/

namespace RequestDocs

open Relation

variable {g : TypeGraph} {roots : TypeId → Prop} {done : List TypeId}

theorem Operation.sampledType?_inService (op : Operation) (service : Service) :
    (op.inService service).sampledType? = op.sampledType? := by
  unfold inService
  split <;> rfl

theorem Operation.body_inService (op : Operation) (service : Service) :
    (op.inService service).body = op.body := by
  unfold inService
  split <;> rfl

def GenerateOptions.Selects (options : GenerateOptions) (op : Operation) : Prop :=
  options.exclusionReason op.name = none

def GenerateOptions.Samples (options : GenerateOptions) (g : TypeGraph) (ops : List Operation)
    (r : TypeId) : Prop :=
  ∃ op ∈ ops, options.Selects op ∧ op.Samples g r

/-- The document has the file name of an operation, with a number where that is taken. -/
def GenerateOptions.Documents (options : GenerateOptions) (ops : List Operation) (d : DocumentFile) :
    Prop :=
  ∃ op ∈ ops, options.Selects op ∧ ∃ suffix, IsIdentifier suffix ∧ d.stem = op.documentStem ++ suffix

theorem Operation.documentStem_inService (op : Operation) (service : Service) :
    (op.inService service).documentStem = op.documentStem := by
  unfold inService
  split <;> rfl

private theorem assemble_progress [Spelling]
    (hg : g.Closed) (options : AssemblyOptions) (op : Operation)
    (hbody : ∀ b ∈ op.body, g.Has b.type) (s : RunState) (h : Progress g roots done s.queue) :
    Completes (Run.assemble g options op) s fun document t =>
      Progress g (fun x => roots x ∨ op.Samples g x) done t.queue ∧
        s.registry.Keeps t.registry ∧ document.stem = op.documentStem := by
  obtain ⟨survey, -, hassemble, hdirect, hnested⟩ := (Run.assemble_ok hg options op hbody).and
    (op.survey_announced hg hbody options.maxDepth)
  refine (hassemble s).mono fun document t ht => ⟨?_, ht.moves.names, ?_⟩
  · rw [ht.moves.queue]
    refine h.announce (fun _ => .inl) (fun x hx => hx.imp_right (hdirect x)) ?_ ?_
    · intro x hx
      obtain ⟨r, ⟨root, -, hroot⟩, hpath⟩ := hnested x hx
      exact hg.isRecord_of_nests hpath hroot.2
    · intro x hx
      obtain ⟨r, hr, hpath⟩ := hnested x hx
      exact ⟨r, .inr hr, hpath⟩
  · obtain ⟨_, _, rfl⟩ := ht.body
    rfl

structure GeneratesDocuments (g : TypeGraph) (options : GenerateOptions) (ops : List Operation)
    (roots : TypeId → Prop) (done : List TypeId) (s : RunState) (documents : List DocumentFile)
    (t : RunState) : Prop where
  progress : Progress g (fun x => roots x ∨ options.Samples g ops x) done t.queue
  names : s.registry.Keeps t.registry
  stems : ∀ d ∈ documents, options.Documents ops d

theorem generateDocuments_ok [Spelling]
    (hg : g.Closed) (options : GenerateOptions) (service : Service)
    (ops : List Operation) (hops : ∀ op ∈ ops, ∀ b ∈ op.body, g.Has b.type) (used : List String)
    (s : RunState) (h : Progress g roots done s.queue) :
    Completes (generateDocuments g options service used ops) s
      (GeneratesDocuments g options ops roots done s) := by
  induction ops generalizing roots used s with
  | nil => exact .pure ⟨by simpa [GenerateOptions.Samples] using h, .refl _, by simp⟩
  | cons op ops ih =>
    have hops' : ∀ op' ∈ ops, ∀ b ∈ op'.body, g.Has b.type :=
      fun op' hop' => hops op' (List.mem_cons_of_mem op hop')
    have hlater {d : DocumentFile} (hd : options.Documents ops d) : options.Documents (op :: ops) d := by
      obtain ⟨op', hop', hd⟩ := hd
      exact ⟨op', List.mem_cons_of_mem op hop', hd⟩
    unfold generateDocuments
    split
    · -- An operation that is left out has no part in the roots.
      next hreason =>
      refine .bind (M := fun _ t => Progress g roots done t.queue ∧ s.registry.Keeps t.registry)
        (.modify ⟨h, .refl _⟩) fun _ t ht => (ih hops' used t ht.1).mono fun _ u hu => ?_
      refine ⟨?_, ht.2.trans hu.names, fun d hd => hlater (hu.stems d hd)⟩
      simpa [GenerateOptions.Samples, GenerateOptions.Selects, hreason] using hu.progress
    · next hreason =>
      have hbody : ∀ b ∈ (op.inService service).body, g.Has b.type := by
        rw [op.body_inService service]
        exact hops op List.mem_cons_self
      refine .bind (assemble_progress hg options.assembly _ hbody s h)
        fun document t ⟨hprogress, hnames, hstem⟩ => ?_
      refine .bind (ih hops' _ t hprogress) fun _ u hu => .pure ⟨?_, hnames.trans hu.names, ?_⟩
      · simpa [GenerateOptions.Samples, GenerateOptions.Selects, Operation.Samples, hreason,
          op.sampledType?_inService service, or_assoc] using hu.progress
      · rintro d (_ | ⟨_, hd⟩)
        · obtain ⟨suffix, hsuffix, heq⟩ := Naming.exists_unique_eq document.stem used
          refine ⟨op, List.mem_cons_self, hreason, suffix, hsuffix, heq.trans ?_⟩
          rw [hstem, op.documentStem_inService service]
        · exact hlater (hu.stems d hd)

/-- The types of all bodies belong to the graph of the source, which is closed. -/
structure Source.InRange (source : Source) : Prop where
  closed : source.types.Closed
  bodies : ∀ service ∈ source.services, ∀ op ∈ service.operations, ∀ b ∈ op.body,
    source.types.Has b.type

instance (source : Source) : Decidable source.InRange :=
  decidable_of_iff (source.types.Closed ∧ ∀ service ∈ source.services,
      ∀ op ∈ service.operations, ∀ b ∈ op.body, source.types.Has b.type)
    ⟨fun h => ⟨h.1, h.2⟩, fun h => ⟨h.closed, h.bodies⟩⟩

/-- The output of a service has documents by the names of its operations, and models by
identifiers. -/
structure GenerateOptions.Outputs (options : GenerateOptions) (service : Service)
    (output : ServiceOutput) : Prop where
  name : output.name = service.name
  documents : ∀ d ∈ output.documents, options.Documents service.operations d
  models : ∀ m ∈ output.models, IsIdentifier m.name

def Source.output (source : Source) (service : Service) (documents : List DocumentFile)
    (models : List (TypeId × Model)) : ServiceOutput :=
  ⟨service.name, documents, models.map Prod.snd, modelPointers source.pointers models⟩

/-- The run of a service: its documents, and after them the models with their records. -/
structure ServiceRun [Spelling]
    (source : Source) (options : GenerateOptions) (service : Service) (stats : Stats)
    (documents : List DocumentFile) (models : List (TypeId × Model)) (t : RunState) : Prop where
  generated : generateService source options service (.start stats) =
    .ok (source.output service documents models) t
  drained : options.emitModels = true → ∃ s,
    generateDocuments source.types options service [] service.operations
      (.start stats.recordService) = .ok documents s ∧
    Run.drain source.types options.assembly.maxDepth s = .ok models t
  stems : ∀ d ∈ documents, options.Documents service.operations d
  names : NameRegistry.empty.Keeps t.registry
  named : ∀ entry ∈ models, Model.Named source.types t.registry entry
  sampled : ∀ entry ∈ models, Model.Sampled source.types options.assembly.maxDepth .empty entry
  nodup : (models.map Prod.fst).Nodup
  reached : options.emitModels = true → ∀ id, id ∈ models.map Prod.fst ↔
    ∃ r, options.Samples source.types service.operations r ∧ ReflTransGen source.types.Nests r id

section

variable {source : Source} {options : GenerateOptions} {service : Service} {stats : Stats}
  {documents : List DocumentFile} {models : List (TypeId × Model)} {s t : RunState}

theorem generateService_eq_documents [Spelling] (hmodels : options.emitModels = false)
    (hdocuments : generateDocuments source.types options service [] service.operations
      (.start stats.recordService) = .ok documents s) :
    generateService source options service (.start stats) =
      .ok (source.output service documents []) s := by
  have hstart : Run.record (·.recordService) (.start stats) = .ok () (.start stats.recordService) := rfl
  unfold generateService
  rw [bind_eq_of_ok hstart, bind_eq_of_ok hdocuments]
  simp only [hmodels]
  rfl

theorem generateService_eq_models [Spelling] (hmodels : options.emitModels = true)
    (hdocuments : generateDocuments source.types options service [] service.operations
      (.start stats.recordService) = .ok documents s)
    (hdrain : Run.drain source.types options.assembly.maxDepth s = .ok models t) :
    generateService source options service (.start stats) =
      .ok (source.output service documents models) t := by
  have hstart : Run.record (·.recordService) (.start stats) = .ok () (.start stats.recordService) := rfl
  unfold generateService
  rw [bind_eq_of_ok hstart, bind_eq_of_ok hdocuments]
  simp only [hmodels, if_true]
  rw [bind_eq_of_ok hdrain]
  rfl

end

theorem Source.InRange.runs [Spelling]
    {source : Source} (h : source.InRange) (options : GenerateOptions)
    {service : Service} (hservice : service ∈ source.services) (stats : Stats) :
    ∃ documents models t, ServiceRun source options service stats documents models t := by
  obtain ⟨documents, s, hdocuments, hgenerates⟩ := (generateDocuments_ok h.closed options service _
    (h.bodies service hservice) [] (.start stats.recordService) .empty).exists_ok
  by_cases hmodels : options.emitModels = true
  · obtain ⟨models, t, hdrain, hdrains⟩ :=
      (Run.drain_ok h.closed options.assembly.maxDepth s hgenerates.progress).exists_ok
    have hgenerated := generateService_eq_models hmodels hdocuments hdrain
    refine ⟨documents, models, t, hgenerated, fun _ => ⟨s, hdocuments, hdrain⟩, hgenerates.stems,
      hgenerates.names.trans hdrains.names, hdrains.named, ?_, ?_, fun _ id => ?_⟩
    · exact fun entry hentry => (hdrains.sampled entry hentry).mono hgenerates.names
    · simpa [hdrains.empty] using hdrains.progress.nodup
    · simpa using hdrains.progress.finished hdrains.empty id
  · have hgenerated := generateService_eq_documents (by simpa using hmodels) hdocuments
    exact ⟨documents, [], s, hgenerated, fun h => absurd h hmodels, hgenerates.stems, hgenerates.names,
      by simp, by simp, by simp, fun h => absurd h hmodels⟩

namespace ServiceRun

variable {source : Source} {options : GenerateOptions} {service : Service} {stats : Stats}
  {documents : List DocumentFile} {models : List (TypeId × Model)} {t : RunState}

theorem isIdentifier_name [Spelling]
    (h : ServiceRun source options service stats documents models t)
    {entry : TypeId × Model} (hentry : entry ∈ models) : IsIdentifier entry.2.name := by
  have hused := NameRegistry.mem_used_of_nameOf (h.named entry hentry).1
  have hfresh := h.names.fresh _ hused
  simpa [NameRegistry.used, NameRegistry.empty] using hfresh

theorem isRecord [Spelling] (h : ServiceRun source options service stats documents models t)
    (hclosed : source.types.Closed) (hmodels : options.emitModels = true) {entry : TypeId × Model}
    (hentry : entry ∈ models) : source.types.IsRecord entry.1 := by
  obtain ⟨r, hsamples, hpath⟩ := (h.reached hmodels entry.1).1 (List.mem_map_of_mem hentry)
  obtain ⟨_, _, _, _, _, hdirect⟩ := hsamples
  exact hclosed.isRecord_of_nests hpath hdirect.2

theorem distinct [Spelling] (h : ServiceRun source options service stats documents models t) :
    t.registry.used.Nodup :=
  h.names.distinct List.nodup_nil

theorem nodup_names [Spelling] (h : ServiceRun source options service stats documents models t) :
    (models.map fun entry => entry.2.name).Nodup := by
  apply List.Nodup.map_on _ (List.Nodup.of_map Prod.fst h.nodup)
  intro entry hentry entry' hentry' heq
  have hname := (h.named entry hentry).1
  have hname' := (h.named entry' hentry').1
  rw [← heq] at hname'
  exact List.inj_on_of_nodup_map h.nodup hentry hentry' (NameRegistry.nameOf?_inj h.distinct hname hname')

end ServiceRun

theorem generateServices_ok [Spelling]
    {source : Source} (h : source.InRange) (options : GenerateOptions)
    (services : List Service) (hsub : services ⊆ source.services) (stats : Stats) :
    Succeeds (generateServices source options stats services) fun result =>
      ∀ output ∈ result.1, ∃ service ∈ services, options.Outputs service output := by
  induction services generalizing stats with
  | nil => exact .pure (by simp)
  | cons service services ih =>
    unfold generateServices
    obtain ⟨documents, models, t, hservice⟩ := h.runs options (hsub List.mem_cons_self) stats
    have houtput : options.Outputs service (source.output service documents models) := by
      refine ⟨rfl, hservice.stems, fun m hm => ?_⟩
      obtain ⟨entry, hentry, rfl⟩ := List.mem_map.1 hm
      exact hservice.isIdentifier_name hentry
    rw [hservice.generated]
    refine .bind (ih (fun _ hs => hsub (List.mem_cons_of_mem service hs)) t.stats)
      fun (outputs, _) houtputs => .pure ?_
    rintro output' (_ | ⟨_, hmem⟩)
    · exact ⟨service, List.mem_cons_self, houtput⟩
    · obtain ⟨service', hservice', houtput'⟩ := houtputs output' hmem
      exact ⟨service', List.mem_cons_of_mem service hservice', houtput'⟩

end RequestDocs
