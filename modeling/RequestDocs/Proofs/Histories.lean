import RequestDocs.Proofs.Drains
/-!
# Histories of runs

Runs that assemble, skip and drain in any order. The models written up to a drain are the records
nested in those discovered by documents so far, and what a run did before leaves its marks on a
document only in the notes of the body.
-/

namespace RequestDocs

open Relation

variable {g : TypeGraph}

inductive RunStep
  | assemble (options : AssemblyOptions) (op : Operation)
  | skip (op : Operation) (reason : String)
  | drain (maxDepth : Nat)

namespace RunStep

/-- The models that a step returns with the ids of their records; only a drain returns any. -/
def perform [Spelling] (g : TypeGraph) : RunStep → Run (List (TypeId × Model))
  | assemble options op => do
    let _ ← Run.assemble g options op
    return []
  | skip op reason => do
    Run.skip op reason
    return []
  | drain maxDepth => Run.drain g maxDepth

def Discovers [Spelling] (g : TypeGraph) : RunStep → TypeId → Prop
  | assemble options op, id => ∃ document t,
      RequestDocs.assemble g options op .initial = .ok document t ∧ id ∈ t.queue.seen
  | _, _ => False

def InRange (g : TypeGraph) : RunStep → Prop
  | assemble _ op => ∀ b ∈ op.body, g.Has b.type
  | _ => True

private theorem discovers_iff [Spelling]
    (hg : g.Closed) (options : AssemblyOptions) {op : Operation}
    (hop : ∀ b ∈ op.body, g.Has b.type) : Succeeds (op.survey g options.maxDepth) fun survey =>
      ∀ id, (assemble options op).Discovers g id ↔ id ∈ survey.announced := by
  refine (op.assemble_behaves hg options hop).mono fun survey hassemble id => ?_
  obtain ⟨document, t, hstep, -, hmoves⟩ := (hassemble .initial).exists_ok
  have hseen : id ∈ t.queue.seen ↔ id ∈ survey.announced := by
    rw [hmoves.queue, VisitQueue.mem_seen_announce]
    simp [SynthesisState.initial, VisitQueue.empty]
  rw [← hseen]
  constructor
  · rintro ⟨document', t', hstep', hid⟩
    cases hstep.symm.trans hstep'
    exact hid
  · exact fun hid => ⟨document, t, hstep, hid⟩

/-- What a step adds to the progress of a run, and the models it returns. -/
structure Adds [Spelling]
    (g : TypeGraph) (roots : TypeId → Prop) (done : List TypeId) (step : RunStep)
    (s : RunState) (models : List (TypeId × Model)) (t : RunState) : Prop where
  progress : Progress g (fun x => roots x ∨ step.Discovers g x) (done ++ models.map Prod.fst) t.queue
  names : s.registry.Keeps t.registry
  named : ∀ m ∈ models, Model.Named g t.registry m
  empty : ∀ maxDepth, step = drain maxDepth → t.queue.pending = []

theorem perform_ok [Spelling] (hg : g.Closed) {step : RunStep} (hstep : step.InRange g)
    {roots : TypeId → Prop} {done : List TypeId} (s : RunState) (h : Progress g roots done s.queue) :
    Completes (step.perform g) s (Adds g roots done step s) := by
  cases step with
  | assemble options op =>
    obtain ⟨survey, -, ⟨hassemble, hdiscovers⟩, -, hannounced⟩ :=
      ((Run.assemble_ok hg options op hstep).and (discovers_iff hg options hstep)).and
        (op.survey_announced hg hstep options.maxDepth)
    have hrecords (x : TypeId) (hx : x ∈ survey.announced) : g.IsRecord x := by
      obtain ⟨r, ⟨root, -, hdirect⟩, hpath⟩ := hannounced x hx
      exact hg.isRecord_of_nests hpath hdirect.2
    refine .bind (hassemble s) fun _ t ht => .pure ⟨?_, ht.moves.names, by simp, by simp⟩
    rw [ht.moves.queue, List.map_nil, List.append_nil]
    refine h.announce (fun _ => .inl) (fun x hx => hx.imp_right (hdiscovers x).1) hrecords ?_
    exact fun x hx => ⟨x, .inr ((hdiscovers x).2 hx), .refl⟩
  | skip op reason =>
    refine .bind (Run.skip_ok op reason s) fun _ t hmoves => .pure ⟨?_, hmoves.names, by simp, by simp⟩
    simpa [hmoves.queue, Discovers] using h
  | drain maxDepth =>
    refine (Run.drain_ok hg maxDepth s h).mono fun models t ht => ?_
    exact ⟨by simpa [Discovers] using ht.progress, ht.names, ht.named, fun _ _ => ht.empty⟩

/-- What a run of steps comes to. -/
private structure History [Spelling] (g : TypeGraph) (roots : TypeId → Prop) (done : List TypeId)
    (steps : List RunStep) (answers : List (List (TypeId × Model))) (t : RunState) : Prop where
  length : answers.length = steps.length
  nodup : (done ++ answers.flatten.map Prod.fst).Nodup
  drained : ∀ i maxDepth, steps[i]? = some (drain maxDepth) → ∀ id,
    id ∈ done ++ (answers.take (i + 1)).flatten.map Prod.fst ↔
      ∃ root, (roots root ∨ ∃ step ∈ steps.take i, step.Discovers g root) ∧
        ReflTransGen g.Nests root id
  named : ∀ entry ∈ answers.flatten, Model.Named g t.registry entry

private theorem performAll_ok [Spelling] (hg : g.Closed) (steps : List RunStep)
    (hsteps : ∀ step ∈ steps, step.InRange g) {roots : TypeId → Prop} {done : List TypeId}
    (s : RunState) (h : Progress g roots done s.queue) :
    Completes (steps.mapM (perform g)) s fun answers t =>
      History g roots done steps answers t ∧ s.registry.Keeps t.registry := by
  induction steps generalizing roots done s with
  | nil =>
    refine .pure ⟨⟨rfl, ?_, by simp, by simp⟩, .refl _⟩
    simpa using h.nodup.of_append_left
  | cons step steps ih =>
    rw [List.mapM_cons]
    refine .bind (perform_ok hg (hsteps step List.mem_cons_self) s h) fun models t ht => ?_
    refine .bind (ih (fun step' h' => hsteps step' (List.mem_cons_of_mem step h')) t ht.progress)
      fun answers u ⟨hrest, hkeeps⟩ => .pure ⟨⟨?_, ?_, ?_, ?_⟩, ht.names.trans hkeeps⟩
    · simp [hrest.length]
    · simpa using hrest.nodup
    · intro i maxDepth hi id
      cases i with
      | zero =>
        -- A drain discovers nothing itself, so its roots are those from before.
        obtain rfl : step = drain maxDepth := by simpa using hi
        have hfinished := ht.progress.finished (ht.empty maxDepth rfl) id
        simpa [Discovers] using hfinished
      | succ i =>
        have hdrained := hrest.drained i maxDepth (by simpa using hi) id
        simpa [or_assoc] using hdrained
    · intro entry hentry
      rw [List.flatten_cons, List.mem_append] at hentry
      rcases hentry with hentry | hentry
      · exact (ht.named entry hentry).mono hkeeps
      · exact hrest.named entry hentry

/-- A run of steps completes and returns no record twice. The records returned up to a drain are
those nested at any depth in the records discovered before it. -/
theorem performAll_models [Spelling] (hg : g.Closed) (steps : List RunStep)
    (hsteps : ∀ step ∈ steps, step.InRange g) (stats : Stats) :
    ∃ answers t, steps.mapM (perform g) (.start stats) = .ok answers t ∧
      answers.length = steps.length ∧
      (answers.flatten.map Prod.fst).Nodup ∧
      (∀ i maxDepth, steps[i]? = some (drain maxDepth) → ∀ id,
        id ∈ (answers.take (i + 1)).flatten.map Prod.fst ↔
          ∃ root, (∃ step ∈ steps.take i, step.Discovers g root) ∧ ReflTransGen g.Nests root id) ∧
      ∀ entry ∈ answers.flatten, Model.Named g t.registry entry := by
  have hrun := performAll_ok hg steps hsteps (.start stats) .empty
  obtain ⟨answers, t, hrun, hhistory, -⟩ := hrun.exists_ok
  refine ⟨answers, t, hrun, hhistory.length, ?_, ?_, hhistory.named⟩
  · simpa using hhistory.nodup
  · intro i maxDepth hi id
    simpa using hhistory.drained i maxDepth hi id

end RunStep

def petGraph : TypeGraph := .ofList [
  .record (some "Owner") none [⟨"pets", ⟨1⟩⟩],
  .array ⟨2⟩,
  .record (some "Pet") none [⟨"owner", ⟨0⟩⟩]]

def postOwner : Operation where
  name := "addOwner"
  group := "owners"
  verb := some ⟨"POST"⟩
  path := "/owners"
  parameters := []
  body := some ⟨.single, ["application/json"], ⟨0⟩⟩
  authentication := .none

theorem petGraph_closed : petGraph.Closed := by decide

theorem postOwner_inRange : ∀ b ∈ postOwner.body, petGraph.Has b.type := by decide

def petOptions : AssemblyOptions := ⟨.default, 1⟩

/-- A run that drains twice, the second time after a document that announces the same records. -/
def petSteps : List RunStep :=
  [.assemble petOptions postOwner, .drain 1, .skip postOwner "repeated",
    .assemble petOptions postOwner, .drain 1]

attribute [local instance] Spelling.plain

theorem RunStep.petSteps_models :
    petGraph.Closed ∧ (∀ step ∈ petSteps, step.InRange petGraph) ∧
    ∃ answers t, petSteps.mapM (RunStep.perform petGraph) (.start .zero) = .ok answers t ∧
      answers.length = 5 ∧ (answers.flatten.map Prod.fst).Nodup := by
  have hsteps : ∀ step ∈ petSteps, step.InRange petGraph := by
    simpa [petSteps, RunStep.InRange] using postOwner_inRange
  obtain ⟨answers, t, hrun, hlength, hnodup, -⟩ :=
    RunStep.performAll_models petGraph_closed _ hsteps .zero
  exact ⟨petGraph_closed, hsteps, answers, t, hrun, hlength, hnodup⟩

namespace Run

/-- The outcome of assembling an operation: the document, with the lines of its body and the text
before them, and the issues met. -/
structure Assembled [Spelling]
    (g : TypeGraph) (options : AssemblyOptions) (op : Operation) (s : RunState)
    (document : RequestDocument) (head lines : List String) (issues : List Issue) : Prop where
  body : ∃ t, op.bodySection g options.maxDepth ⟨s.registry, s.queue, []⟩ =
    .ok (lines, document.bodyStatus) t ∧ t.issues = issues
  result : ∃ t, assemble g options op s = .ok document t ∧
    t.stats = (s.stats.recordDocument op.name document.bodyStatus document.templateError
      op.path).recordIssues op.name issues
  contents : document.contents = String.intercalate "\n" (head ++ lines)

private theorem assembled_of_body [Spelling]
    (options : AssemblyOptions) (op : Operation) (s : RunState)
    {lines : List String} {status : BodyStatus} {t : SynthesisState}
    (h : op.bodySection g options.maxDepth ⟨s.registry, s.queue, []⟩ = .ok (lines, status) t) :
    Assembled g options op s (op.document options.document lines status)
      ((op.draft options.document).head op.name) lines t.issues where
  body := ⟨t, h, rfl⟩
  result := by
    have hassemble : RequestDocs.assemble g options op ⟨s.registry, s.queue, []⟩ =
        .ok (op.document options.document lines status) t := by
      rw [op.assemble_eq, bind_eq_of_ok h]
      rfl
    have hsynthesis : synthesis (RequestDocs.assemble g options op) s =
        .ok (op.document options.document lines status, t.issues)
          { s with registry := t.registry, queue := t.queue } := by
      simp only [synthesis, hassemble]
    refine ⟨⟨t.registry, t.queue, (s.stats.recordDocument op.name status
      (checkTemplate op.writtenPath) op.path).recordIssues op.name t.issues⟩, ?_, rfl⟩
    unfold assemble
    rw [bind_eq_of_ok hsynthesis]
    rfl
  contents := op.document_contents _ _ _

/-- What a run did before shows in a document only in the notes of its body: the rest of every line,
the rest of the document and the kinds of the issues are the same for every two states. -/
theorem assemble_sameButNotes [Spelling]
    (hg : g.Closed) (options : AssemblyOptions) (op : Operation)
    (hbody : ∀ b ∈ op.body, g.Has b.type) (s s' : RunState) :
    ∃ survey document document' head lines lines' issues issues',
      op.survey g options.maxDepth = .ok survey ∧
      Assembled g options op s document head lines issues ∧
      Assembled g options op s' document' head lines' issues' ∧
      document.stem = document'.stem ∧
      document.bodyStatus = document'.bodyStatus ∧
      document.templateError = document'.templateError ∧
      List.Forall₂ LineStart.Begins survey.starts lines ∧
      List.Forall₂ LineStart.Begins survey.starts lines' ∧
      issues.map Issue.kind = issues'.map Issue.kind := by
  obtain ⟨survey, hsurvey, hbehaves⟩ := op.bodySection_behaves hg hbody options.maxDepth
  have houtcome (s : RunState) : ∃ lines issues,
      Assembled g options op s (op.document options.document lines survey.status)
        ((op.draft options.document).head op.name) lines issues ∧
      List.Forall₂ LineStart.Begins survey.starts lines ∧ issues.map Issue.kind = survey.issues := by
    obtain ⟨⟨lines, status⟩, t, hsection, ⟨hlines, hstatus⟩, hmoves⟩ :=
      (hbehaves ⟨s.registry, s.queue, []⟩).exists_ok
    obtain rfl : status = survey.status := hstatus
    exact ⟨lines, t.issues, assembled_of_body options op s hsection, hlines, by simpa using hmoves.issues⟩
  obtain ⟨lines, issues, hassembled, hlines, hissues⟩ := houtcome s
  obtain ⟨lines', issues', hassembled', hlines', hissues'⟩ := houtcome s'
  exact ⟨survey, _, _, _, lines, lines', issues, issues', hsurvey, hassembled, hassembled', rfl, rfl,
    rfl, hlines, hlines', hissues.trans hissues'.symm⟩

theorem postOwner_sameButNotes :
    petGraph.Closed ∧ (∀ b ∈ postOwner.body, petGraph.Has b.type) ∧
    ∃ document document' head lines lines' issues issues',
      Assembled petGraph petOptions postOwner ⟨.insert .empty ⟨0⟩ "Holder", ⟨[⟨0⟩], []⟩, .zero⟩ document head
        lines issues ∧
      Assembled petGraph petOptions postOwner (.start .zero) document' head lines' issues' ∧
      document.stem = document'.stem ∧ lines.length = lines'.length := by
  obtain ⟨_, document, document', head, lines, lines', issues, issues', -, h, h', hstem, -, -, hlines,
    hlines', -⟩ := assemble_sameButNotes petGraph_closed petOptions postOwner postOwner_inRange
      ⟨.insert .empty ⟨0⟩ "Holder", ⟨[⟨0⟩], []⟩, .zero⟩ (.start .zero)
  exact ⟨petGraph_closed, postOwner_inRange, document, document', head, lines, lines', issues, issues',
    h, h', hstem, hlines.length_eq.symm.trans hlines'.length_eq⟩

end Run

end RequestDocs
