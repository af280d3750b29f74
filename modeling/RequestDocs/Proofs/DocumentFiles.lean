import RequestDocs.Proofs.Composition
import RequestDocs.Proofs.Sources
/-!
# Files of documents

The documents of a service follow the order of its operations. Each is written under the stem of its
operation, or under that stem with the smallest number that keeps it apart from those before it.
-/

namespace RequestDocs

/-- The document is that of the operation, whatever has been named before it. -/
def Operation.Assembles [Spelling] (op : Operation) (g : TypeGraph) (options : AssemblyOptions)
    (document : RequestDocument) : Prop :=
  ∃ s t, assemble g options op s = .ok document t

def Operation.HasText [Spelling]
    (op : Operation) (g : TypeGraph) (options : AssemblyOptions) (text : String) :
    Prop :=
  ∃ document, op.Assembles g options document ∧ document.contents = text

/-- The documents of the selected operations, in order, beside documents with the stems `used`. -/
inductive GenerateOptions.Writes [Spelling]
    (options : GenerateOptions) (g : TypeGraph) (service : Service) :
    List String → List Operation → List DocumentFile → Prop
  | nil (used : List String) : Writes options g service used [] []
  | skip {used : List String} {op : Operation} {ops : List Operation} {documents : List DocumentFile}
      (hselects : ¬options.Selects op) (hrest : Writes options g service used ops documents) :
      Writes options g service used (op :: ops) documents
  | write {used : List String} {op : Operation} {ops : List Operation} {d : DocumentFile}
      {documents : List DocumentFile} (hselects : options.Selects op)
      (htext : (op.inService service).HasText g options.assembly d.contents)
      (hstem : Naming.KeptApart used op.documentStem d.stem)
      (hrest : Writes options g service (d.stem :: used) ops documents) :
      Writes options g service used (op :: ops) (d :: documents)

theorem Run.synthesis_ends {α : Type} (step : Synthesis α) (s : RunState) :
    Ends (fun _ => True) (synthesis step) s fun result _ => ∃ s' t', step s' = .ok result.1 t' := by
  cases hstep : step ⟨s.registry, s.queue, []⟩ with
  | ok value t =>
    simp only [Ends, synthesis, hstep]
    exact ⟨_, t, hstep⟩
  | error fault t => simp only [Ends, synthesis, hstep]

theorem Run.assemble_writes [Spelling] (g : TypeGraph) (options : AssemblyOptions) (op : Operation)
    (s : RunState) : Ends (fun _ => True) (assemble g options op) s fun document _ =>
      op.HasText g options document.contents ∧ document.stem = op.documentStem := by
  apply Ends.bind (synthesis_ends _ s)
  rintro ⟨document, issues⟩ t ⟨s', t', hassemble⟩
  have hstem : document.stem = op.documentStem := by
    rw [op.assemble_eq] at hassemble
    have hmade : Ends (fun _ => True) (do
        let body ← op.bodySection g options.maxDepth
        return op.document options.document body.1 body.2) s' fun document _ =>
          document.stem = op.documentStem :=
      .bind (.anyhow _ s') fun body t _ => .pure rfl
    exact hmade.of_ok hassemble
  apply Ends.bind (.anyhow _ t)
  intro _ t _
  apply Ends.bind (.anyhow _ t)
  intro _ t _
  exact .pure ⟨⟨document, ⟨s', t', hassemble⟩, rfl⟩, hstem⟩

theorem generateDocuments_writes [Spelling]
    (g : TypeGraph) (options : GenerateOptions) (service : Service)
    (used : List String) (ops : List Operation) (s : RunState) :
    Ends (fun _ => True) (generateDocuments g options service used ops) s fun documents _ =>
      options.Writes g service used ops documents := by
  induction ops generalizing used s with
  | nil => exact .pure (.nil used)
  | cons op ops ih =>
    unfold generateDocuments
    split
    · next reason hreason =>
      apply Ends.bind (.anyhow _ s)
      intro _ t _
      apply (ih used t).mono
      intro documents _ hdocuments
      exact .skip (by simp [GenerateOptions.Selects, hreason]) hdocuments
    · next hreason =>
      apply Ends.bind (Run.assemble_writes g options.assembly (op.inService service) s)
      rintro document t ⟨htext, hstem⟩
      rw [op.documentStem_inService service] at hstem
      apply Ends.bind (ih _ t)
      intro documents _ hdocuments
      have hapart := Naming.unique_keptApart document.stem used
      rw [hstem] at hapart hdocuments ⊢
      exact .pure (.write hreason htext hapart hdocuments)

def GenerateOptions.selected (options : GenerateOptions) (ops : List Operation) : List Operation :=
  ops.filter fun op => (options.exclusionReason op.name).isNone

theorem GenerateOptions.Writes.texts [Spelling]
    {options : GenerateOptions} {g : TypeGraph} {service : Service}
    {used : List String} {ops : List Operation} {documents : List DocumentFile}
    (h : options.Writes g service used ops documents) :
    List.Forall₂ (fun op d => (op.inService service).HasText g options.assembly d.contents)
      (options.selected ops) documents := by
  induction h with
  | nil => exact .nil
  | @skip _ op ops _ hselects _ ih =>
    have hleft : options.selected (op :: ops) = options.selected ops := by
      apply List.filter_cons_of_neg
      simpa [Selects] using hselects
    rwa [hleft]
  | @write _ op ops _ _ hselects htext _ _ ih =>
    have hkept : options.selected (op :: ops) = op :: options.selected ops := by
      apply List.filter_cons_of_pos
      simpa [Selects] using hselects
    rw [hkept]
    exact .cons htext ih

theorem generateService_writes [Spelling]
    (source : Source) (options : GenerateOptions) (service : Service)
    (s : RunState) : Ends (fun _ => True) (generateService source options service) s fun output _ =>
      options.Writes source.types service [] service.operations output.documents := by
  apply Ends.bind (.anyhow _ s)
  intro _ t _
  apply Ends.bind (generateDocuments_writes source.types options service [] service.operations t)
  intro documents u hdocuments
  split
  · apply Ends.bind (.anyhow _ u)
    intro models v _
    exact .pure hdocuments
  · exact .pure hdocuments

namespace OpenApi

theorem Api.exists_run_of_source [Spelling]
    {api : Api} {source : Source} (hsource : api.source = .ok source)
    (options : GenerateOptions) : ∃ service documents models t, source.services = [service] ∧
      ServiceRun source options service .zero documents models t ∧
      Succeeds (generate source options) fun result =>
        result.1 = Layout.serviceFiles options.sourceLabel (source.output service documents models) := by
  have hrange := Api.inRange_of_source hsource
  obtain ⟨service, hservices⟩ := Api.exists_service_of_source hsource
  have hservice : service ∈ source.services := by simp [hservices]
  obtain ⟨documents, models, t, hrun⟩ := hrange.runs options hservice .zero
  have hparts : List.Forall₂ (GeneratesAlone source options) source.services
      [(source.output service documents models, t.stats)] := by
    rw [hservices]
    exact .cons (.of_run hrun) .nil
  exact ⟨service, documents, models, t, hservices, hrun, _, generate_eq hparts, by simp⟩

theorem Api.writes_of_source [Spelling]
    {api : Api} {source : Source} (hsource : api.source = .ok source)
    (options : GenerateOptions) : ∃ service, source.services = [service] ∧
      Succeeds (generate source options) fun result => ∃ documents models,
        options.Writes source.types service [] service.operations documents ∧
          result.1 = documents.map (Layout.renderedDocument service.name) ++ models := by
  obtain ⟨service, documents, models, t, hservices, hrun, hgenerate⟩ :=
    Api.exists_run_of_source hsource options
  have hwrites := (generateService_writes source options service _).of_ok hrun.generated
  exact ⟨service, hservices, hgenerate.mono fun result hfiles => ⟨documents, _, hwrites, hfiles⟩⟩

end OpenApi

end RequestDocs
