import RequestDocs.Generation.Basic
import RequestDocs.Proofs.BodySurveys
/-!
# Runs over closed graphs

Every step of a run over a closed graph completes. What it announces to the queue and the kinds of
its issues do not depend on the state that it starts from.
-/

namespace RequestDocs

open Relation

variable {g : TypeGraph}

namespace Run

/-- What becomes of the names and the queue of a run when ids are announced. -/
structure Moves (ids : List TypeId) (s t : RunState) : Prop where
  names : s.registry.Keeps t.registry
  queue : t.queue = s.queue.announce ids

theorem Moves.refl (s : RunState) : Moves [] s s := ⟨.refl _, rfl⟩

theorem Moves.trans {ids ids' : List TypeId} {s t u : RunState} (h : Moves ids s t)
    (h' : Moves ids' t u) : Moves (ids ++ ids') s u where
  names := h.names.trans h'.names
  queue := by rw [h'.queue, h.queue, VisitQueue.announce_append]

theorem synthesis_ok {α : Type} {step : Synthesis α} {ids : List TypeId} {kinds : List Issue.Kind}
    {P : α → Prop} (h : Synthesis.Behaves step ids kinds P) (s : RunState) :
    Completes (synthesis step) s fun result t =>
      (P result.1 ∧ ∃ u, step ⟨s.registry, s.queue, []⟩ = .ok result.1 u) ∧
      result.2.map Issue.kind = kinds ∧ Moves ids s t ∧ t.stats = s.stats := by
  obtain ⟨a, u, hstep, hP, hmoves⟩ := (h ⟨s.registry, s.queue, []⟩).exists_ok
  simp only [Completes, Ends, synthesis, hstep]
  exact ⟨⟨hP, u, rfl⟩, by simpa using hmoves.issues, ⟨hmoves.names, hmoves.queue⟩, trivial⟩

private theorem record_ok (change : Stats → Stats) (s : RunState) :
    Completes (record change) s fun _ t => t = { s with stats := change s.stats } :=
  .modify rfl

/-- What assembling an operation comes to, given the survey of its body. -/
structure Assembles (op : Operation) (options : DocumentOptions) (survey : BodySurvey)
    (s : RunState) (document : RequestDocument) (t : RunState) : Prop where
  moves : Moves survey.announced s t
  body : ∃ lines, List.Forall₂ LineStart.Begins survey.starts lines ∧
    document = op.document options lines survey.status
  stats : ∃ issues : List Issue, issues.map Issue.kind = survey.issues ∧
    t.stats = (s.stats.recordDocument op.name survey.status (checkTemplate op.writtenPath)
      op.path).recordIssues op.name issues

theorem assemble_ok [Spelling] (hg : g.Closed) (options : AssemblyOptions) (op : Operation)
    (hbody : ∀ b ∈ op.body, g.Has b.type) : Succeeds (op.survey g options.maxDepth) fun survey =>
      ∀ s, Completes (assemble g options op) s (Assembles op options.document survey s) := by
  refine (op.assemble_behaves hg options hbody).mono fun survey hassemble s => ?_
  refine .bind (synthesis_ok hassemble s) fun (document, issues) t ⟨⟨hdocument, _⟩, hissues, hmoves, hstats⟩ => ?_
  obtain ⟨lines, hlines, rfl⟩ := hdocument
  refine .bind (record_ok _ t) fun _ u hu => .bind (record_ok _ u) fun _ v hv => .pure ?_
  subst hu hv
  refine ⟨⟨hmoves.names, hmoves.queue⟩, ⟨lines, hlines, rfl⟩, ⟨issues, hissues, ?_⟩⟩
  simp only [hstats]
  rfl

theorem skip_ok (op : Operation) (reason : String) (s : RunState) :
    Completes (skip op reason) s fun _ t => Moves [] s t :=
  .modify ⟨.refl _, rfl⟩

private theorem nameFor_ok [Spelling]
    {id : TypeId} (hid : g.Has id) (hint : String) (s : RunState) :
    Completes (nameFor g id hint) s fun name t =>
      Moves [] s t ∧ t.registry.nameOf? id = some name := by
  refine .get_bind (.lift_bind (s.registry.nameFor_ok hid hint) fun (name, registry) ⟨hkeeps, hname⟩ => ?_)
  have hset : Moves [] s { s with registry } := ⟨hkeeps, rfl⟩
  exact .bind (M := fun _ t => t = { s with registry }) (.set rfl) fun _ t ht =>
    .pure ⟨ht ▸ hset, ht ▸ hname⟩

private theorem nameDependencies_ok [Spelling] (model : String) (nested : List TypeId)
    (hnested : ∀ r ∈ nested, g.Has r) (s : RunState) :
    Completes (nested.mapM (nameDependency g model)) s fun names t => Moves nested s t ∧
      List.Forall₂ (fun r name => t.registry.nameOf? r = some name) nested names := by
  induction nested generalizing s with
  | nil => exact .pure ⟨.refl s, .nil⟩
  | cons r rs ih =>
    rw [List.mapM_cons]
    have hfirst : Completes (nameDependency g model r) s fun name t =>
        Moves [r] s t ∧ t.registry.nameOf? r = some name := by
      refine .bind (nameFor_ok (hnested r List.mem_cons_self) _ s) fun name t ⟨hmoves, hname⟩ => ?_
      refine .bind (M := fun _ u => u = { t with queue := (t.queue.enqueue r).2 }) (.modify rfl)
        fun _ u hu => ?_
      subst hu
      exact .pure ⟨⟨hmoves.names, by simp [hmoves.queue]⟩, hname⟩
    refine .bind hfirst fun name t ⟨hmoves, hname⟩ => ?_
    have hrest := ih (fun r' hr' => hnested r' (List.mem_cons_of_mem r hr')) t
    refine .bind hrest fun names u ⟨hmoves', hnames⟩ => ?_
    exact .pure ⟨hmoves.trans hmoves', .cons (hmoves'.names.kept r name hname) hnames⟩

end Run

/-- The lines of the model are those of a sample of its record, made when names given so far were
kept. -/
def Model.Sampled [Spelling]
    (g : TypeGraph) (maxDepth : Nat) (names : NameRegistry) (entry : TypeId × Model) :
    Prop :=
  ∃ s t, names.Keeps s.registry ∧
    Synthesis.synthesize g maxDepth entry.2.name entry.1 s = .ok entry.2.lines t

theorem Model.Sampled.mono [Spelling]
    {maxDepth : Nat} {names names' : NameRegistry} {entry : TypeId × Model}
    (h : Sampled g maxDepth names' entry) (hkeeps : names.Keeps names') :
    Sampled g maxDepth names entry := by
  obtain ⟨s, t, hnames, hrun⟩ := h
  exact ⟨s, t, hkeeps.trans hnames, hrun⟩

namespace Run

/-- The model of a record has a sample of it, its name and those of the records nested in it, and
announces only records nested in it, among them those in its fields. -/
theorem model_ok [Spelling] (hg : g.Closed) (maxDepth : Nat) {id : TypeId} (hid : g.IsRecord id) :
    ∃ nested ids, g.nestedRecords id = .ok nested ∧ nested ⊆ ids ∧
      (∀ x ∈ ids, ReflTransGen g.Nests id x) ∧
      ∀ s, Completes (model g maxDepth id) s fun m t => Moves ids s t ∧
        t.registry.nameOf? id = some m.name ∧
        List.Forall₂ (fun r name => t.registry.nameOf? r = some name) nested m.dependencies ∧
        Model.Sampled g maxDepth s.registry (id, m) := by
  obtain ⟨nested, hnested, -⟩ := hg.nestedRecords_ok hid.has
  have hrecords (r : TypeId) (hr : r ∈ nested) : g.Has r :=
    (hg.isRecord_of_nests (.single ⟨nested, hnested, hr⟩) hid).has
  have hsurveys := (Synthesis.synthesize_behaves hg maxDepth hid.has).and
    (Synthesis.surveyBelow_announced hg _ [] hid.has)
  obtain ⟨survey, -, hbehaves, hannounced⟩ := hsurveys
  refine ⟨nested, survey.announced ++ nested, hnested, List.subset_append_right _ _, ?_, fun s => ?_⟩
  · intro x hx
    rcases List.mem_append.1 hx with hx | hx
    · obtain ⟨r, hdirect, hpath⟩ := hannounced.nested x hx
      rwa [hid.holds_iff.1 hdirect.holds] at hpath
    · exact .single ⟨nested, hnested, hx⟩
  · refine .bind (nameFor_ok hid.has "Model" s) fun name t ⟨hmoves, hname⟩ => ?_
    refine .bind (synthesis_ok (hbehaves name) t) fun (lines, issues) u hsynthesis => ?_
    obtain ⟨⟨-, _, hrun⟩, -, hmoves', -⟩ := hsynthesis
    refine .bind (record_ok _ u) fun _ v hv => ?_
    have hmoves'' : Moves [] u v := hv ▸ ⟨.refl _, rfl⟩
    refine .lift_bind ⟨nested, hnested, rfl⟩ fun _ h => ?_
    subst h
    refine .bind (nameDependencies_ok name nested hrecords v) fun dependencies w ⟨hlast, hall⟩ => ?_
    have hwhole := ((hmoves.trans hmoves').trans hmoves'').trans hlast
    rw [List.nil_append, List.append_nil] at hwhole
    refine .pure ⟨hwhole, ?_, hall, _, _, hmoves.names, hrun⟩
    exact hlast.names.kept _ _ (hmoves''.names.kept _ _ (hmoves'.names.kept _ _ hname))

end Run

end RequestDocs
