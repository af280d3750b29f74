import RequestDocs.Proofs.ModelCoverage
import RequestDocs.Proofs.ServiceFiles
/-!
# Composition

Generation takes services one by one. A run only adds to the statistics it starts with and starts
with names and a queue of its own, and the files of a service read the same beside others, so that a
source has the files and statistics of its services.
-/

namespace RequestDocs

namespace Stats

def add (s s' : Stats) : Stats where
  services := s.services + s'.services
  operationsSeen := s.operationsSeen + s'.operationsSeen
  documentsGenerated := s.documentsGenerated + s'.documentsGenerated
  bodiesSynthesized := s.bodiesSynthesized + s'.bodiesSynthesized
  modelsGenerated := s.modelsGenerated + s'.modelsGenerated
  warnings := s.warnings ++ s'.warnings

def total (parts : List Stats) : Stats := parts.foldr add zero

variable (s s' s'' : Stats)

@[simp] theorem add_zero : s.add zero = s := by simp [add, zero]

@[simp] theorem zero_add : zero.add s = s := by simp [add, zero]

theorem add_assoc : (s.add s').add s'' = s.add (s'.add s'') := by
  simp [add, Nat.add_assoc]

theorem total_nil : total [] = zero := rfl

theorem total_cons (parts : List Stats) : total (s :: parts) = s.add (total parts) := rfl

/-- The change adds to the statistics, and adds the same to any. -/
def Adds (change : Stats → Stats) : Prop := ∀ s s' : Stats, change (s.add s') = s.add (change s')

theorem adds_recordService : Adds recordService := by
  intro s s'
  simp [recordService, add, Nat.add_assoc]

theorem adds_recordWarnings (warnings : List Warning) : Adds (recordWarnings · warnings) := by
  intro s s'
  simp [recordWarnings, add]

theorem adds_recordSkipped (operation reason : String) : Adds (recordSkipped · operation reason) := by
  intro s s'
  simp [recordSkipped, recordWarnings, add, Nat.add_assoc]

theorem adds_recordDocument (operation : String) (status : BodyStatus) (error : Option TemplateError)
    (path : String) : Adds (recordDocument · operation status error path) := by
  intro s s'
  simp [recordDocument, recordWarnings, add, Nat.add_assoc]

theorem adds_recordModels (count : Nat) : Adds (recordModels · count) := by
  intro s s'
  simp [recordModels, add, Nat.add_assoc]

end Stats

def RunState.after (s : RunState) (stats : Stats) : RunState := { s with stats := stats.add s.stats }

namespace Run

variable {α β : Type}

def outcomeAfter (stats : Stats) : EStateM.Result Fault RunState α → EStateM.Result Fault RunState α
  | .ok a t => .ok a (t.after stats)
  | .error fault t => .error fault (t.after stats)

/-- Further statistics show in nothing but the statistics of the outcome. -/
def Additive (step : Run α) : Prop := ∀ stats s, step (s.after stats) = outcomeAfter stats (step s)

namespace Additive

theorem pure (a : α) : Additive (Pure.pure a) := fun _ _ => rfl

theorem bind {step : Run α} {next : α → Run β} (h : Additive step) (hnext : ∀ a, Additive (next a)) :
    Additive (step >>= next) := by
  intro stats s
  change EStateM.bind step next (s.after stats) = outcomeAfter stats (EStateM.bind step next s)
  unfold EStateM.bind
  rw [h stats s]
  cases step s with
  | ok a t => exact hnext a stats t
  | error fault t => rfl

theorem get_bind {next : RunState → Run β} (h : ∀ s, Additive (next s))
    (hnext : ∀ stats s, next (s.after stats) = next s) : Additive (get >>= next) := by
  intro stats s
  change next (s.after stats) (s.after stats) = outcomeAfter stats (next s s)
  rw [hnext]
  exact h s stats s

theorem lift (x : Except Fault α) : Additive (liftFault x) := by
  intro stats s
  cases x <;> rfl

theorem mapM {f : α → Run β} (h : ∀ x, Additive (f x)) (xs : List α) : Additive (xs.mapM f) := by
  induction xs with
  | nil => exact pure []
  | cons x xs ih =>
    rw [List.mapM_cons]
    exact bind (h x) fun y => bind ih fun ys => pure (y :: ys)

theorem record {change : Stats → Stats} (h : Stats.Adds change) : Additive (Run.record change) := by
  intro stats s
  change EStateM.Result.ok () { s with stats := change (stats.add s.stats) } = _
  rw [h stats s.stats]
  rfl

theorem synthesis (step : Synthesis α) : Additive (Run.synthesis step) := by
  intro stats s
  have hsame : SynthesisState.mk (s.after stats).registry (s.after stats).queue [] =
      ⟨s.registry, s.queue, []⟩ := rfl
  unfold Run.synthesis
  rw [hsame]
  cases step ⟨s.registry, s.queue, []⟩ <;> rfl

theorem dequeue : Additive Run.dequeue := fun _ _ => rfl

end Additive

variable (g : TypeGraph) (maxDepth : Nat)

theorem assemble_additive [Spelling] (options : AssemblyOptions) (op : Operation) :
    Additive (assemble g options op) := by
  refine .bind (.synthesis _) fun result => ?_
  refine .bind (.record (Stats.adds_recordDocument _ _ _ _)) fun _ => ?_
  exact .bind (.record (Stats.adds_recordWarnings _)) fun _ => .pure _

theorem nameFor_additive [Spelling] (id : TypeId) (hint : String) :
    Additive (nameFor g id hint) := by
  intro stats s
  change (liftFault (s.registry.nameFor g id hint) >>= _) (s.after stats) =
    outcomeAfter stats ((liftFault (s.registry.nameFor g id hint) >>= _) s)
  cases s.registry.nameFor g id hint <;> rfl

theorem nameDependency_additive [Spelling] (model : String) (id : TypeId) :
    Additive (nameDependency g model id) :=
  .bind (nameFor_additive g id _) fun name => .bind (fun _ _ => rfl) fun _ => .pure name

theorem model_additive [Spelling] (id : TypeId) : Additive (model g maxDepth id) := by
  refine .bind (nameFor_additive g id _) fun name => ?_
  refine .bind (.synthesis _) fun result => ?_
  refine .bind (.record (Stats.adds_recordWarnings _)) fun _ => ?_
  refine .bind (.lift _) fun nested => ?_
  exact .bind (.mapM (nameDependency_additive g name) nested) fun _ => .pure _

theorem drainQueue_additive [Spelling] (fuel : Nat) : Additive (drainQueue g maxDepth fuel) := by
  induction fuel with
  | zero => exact fun _ _ => rfl
  | succ fuel ih =>
    refine .bind .dequeue fun item => ?_
    cases item with
    | none => exact .pure []
    | some id =>
      refine .bind (model_additive g maxDepth id) fun m => ?_
      exact .bind ih fun models => .pure ((id, m) :: models)

theorem drain_additive [Spelling] : Additive (drain g maxDepth) := by
  refine .get_bind (fun s => ?_) fun _ _ => rfl
  refine .bind (drainQueue_additive g maxDepth _) fun models => ?_
  exact .bind (.record (Stats.adds_recordModels _)) fun _ => .pure models

end Run

open Run

theorem generateDocuments_additive [Spelling]
    (g : TypeGraph) (options : GenerateOptions) (service : Service)
    (used : List String) (ops : List Operation) :
    Additive (generateDocuments g options service used ops) := by
  induction ops generalizing used with
  | nil => exact .pure []
  | cons op ops ih =>
    unfold generateDocuments
    split
    · exact .bind (.record (Stats.adds_recordSkipped _ _)) fun _ => ih used
    · refine .bind (assemble_additive g _ _) fun document => ?_
      exact .bind (ih _) fun documents => .pure (_ :: documents)

theorem generateService_additive [Spelling]
    (source : Source) (options : GenerateOptions) (service : Service) :
    Additive (generateService source options service) := by
  refine .bind (.record Stats.adds_recordService) fun _ => ?_
  refine .bind (generateDocuments_additive _ _ _ _ _) fun documents => ?_
  split
  · exact .bind (drain_additive _ _) fun models => .pure _
  · exact .pure _

/-- What generating a service by itself comes to: an output without two models of one name, and
statistics. -/
structure GeneratesAlone [Spelling]
    (source : Source) (options : GenerateOptions) (service : Service)
    (part : ServiceOutput × Stats) : Prop where
  run : ∃ t, generateService source options service (.start .zero) = .ok part.1 t ∧ t.stats = part.2
  names : part.1.modelNames.Nodup

variable {source : Source} {options : GenerateOptions} {service : Service}

theorem GeneratesAlone.of_run [Spelling]
    {documents : List DocumentFile} {models : List (TypeId × Model)}
    {t : RunState} (h : ServiceRun source options service .zero documents models t) :
    GeneratesAlone source options service (source.output service documents models, t.stats) where
  run := ⟨t, h.generated, rfl⟩
  names := by
    rw [ServiceOutput.modelNames, Source.output, List.map_map]
    exact h.nodup_names

theorem generateServices_eq [Spelling]
    {services : List Service} {parts : List (ServiceOutput × Stats)}
    (h : List.Forall₂ (GeneratesAlone source options) services parts) (stats : Stats) :
    generateServices source options stats services =
      .ok (parts.map Prod.fst, stats.add (.total (parts.map Prod.snd))) := by
  induction h generalizing stats with
  | nil => simp [generateServices, Stats.total_nil]; rfl
  | @cons service part services parts hfirst _ ih =>
    obtain ⟨t, hrun, hstats⟩ := hfirst.run
    have hstart : RunState.start stats = (RunState.start .zero).after stats := by
      simp [RunState.start, RunState.after]
    have hafter : generateService source options service (.start stats) = .ok part.1 (t.after stats) := by
      rw [hstart, generateService_additive source options service stats, hrun]
      rfl
    rw [generateServices, hafter]
    change (generateServices source options (stats.add t.stats) services >>= _) = _
    rw [ih, hstats, Stats.add_assoc, ← Stats.total_cons]
    rfl

theorem generate_eq [Spelling] {parts : List (ServiceOutput × Stats)}
    (h : List.Forall₂ (GeneratesAlone source options) source.services parts) :
    generate source options = .ok
      ((parts.map Prod.fst).flatMap (Layout.serviceFiles options.sourceLabel),
        .total (parts.map Prod.snd)) := by
  have hnames : ∀ output ∈ parts.map Prod.fst, output.modelNames.Nodup := by
    generalize source.services = services at h
    induction h with
    | nil => simp
    | cons hfirst _ ih => exact List.forall_mem_cons.2 ⟨hfirst.names, ih⟩
  rw [generate, generateServices_eq h .zero]
  change (Layout.files _ _ >>= _) = _
  rw [Layout.files_eq _ _ hnames, Stats.zero_add]
  rfl

theorem GeneratesAlone.generate_eq [Spelling] {part : ServiceOutput × Stats}
    (h : GeneratesAlone source options service part) :
    generate { source with services := [service] } options =
      .ok (Layout.serviceFiles options.sourceLabel part.1, part.2) := by
  have halone : GeneratesAlone { source with services := [service] } options service part :=
    ⟨h.run, h.names⟩
  rw [RequestDocs.generate_eq (.cons halone .nil)]
  simp [Stats.total_cons, Stats.total_nil]

theorem exists_forall₂ {α β : Type} {R : α → β → Prop} (xs : List α) (h : ∀ x ∈ xs, ∃ y, R x y) :
    ∃ ys, List.Forall₂ R xs ys := by
  induction xs with
  | nil => exact ⟨[], .nil⟩
  | cons x xs ih =>
    obtain ⟨⟨y, hy⟩, hxs⟩ := List.forall_mem_cons.1 h
    obtain ⟨ys, hys⟩ := ih hxs
    exact ⟨y :: ys, .cons hy hys⟩

theorem Source.InRange.generatesAlone [Spelling] (h : source.InRange) (options : GenerateOptions) :
    ∃ parts, List.Forall₂ (GeneratesAlone source options) source.services parts := by
  apply exists_forall₂
  intro service hservice
  obtain ⟨documents, models, t, hrun⟩ := h.runs options hservice .zero
  exact ⟨_, .of_run hrun⟩

/-- The files of a source are those of its services, one service after another, and its statistics
are those of its services taken together. -/
theorem Source.InRange.generate_composes [Spelling]
    (h : source.InRange) (options : GenerateOptions) :
    ∃ parts : List (List RenderedFile × Stats),
      List.Forall₂ (fun service part => generate { source with services := [service] } options = .ok part)
        source.services parts ∧
      generate source options = .ok (parts.flatMap Prod.fst, .total (parts.map Prod.snd)) := by
  obtain ⟨parts, hparts⟩ := h.generatesAlone options
  refine ⟨parts.map fun part => (Layout.serviceFiles options.sourceLabel part.1, part.2), ?_, ?_⟩
  · rw [List.forall₂_map_right_iff]
    exact hparts.imp fun service part halone => halone.generate_eq
  · rw [generate_eq hparts]
    simp [List.flatMap_map, Function.comp_def]

def twinSource : Source := ⟨[petService, petService], petGraph, []⟩

attribute [local instance] Spelling.plain

theorem twinSource_composes :
    twinSource.InRange ∧ ∃ parts : List (List RenderedFile × Stats),
      List.Forall₂ (fun service part => generate { twinSource with services := [service] } petModels = .ok part)
        twinSource.services parts ∧
      generate twinSource petModels = .ok (parts.flatMap Prod.fst, .total (parts.map Prod.snd)) := by
  have hrange : twinSource.InRange := by decide
  exact ⟨hrange, hrange.generate_composes petModels⟩

end RequestDocs
