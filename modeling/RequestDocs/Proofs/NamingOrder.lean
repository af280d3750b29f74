import RequestDocs.Proofs.Histories
/-!
# The order of names

In every state of a run the types that have names are those ever queued, in the same order. So models
are drained in the order in which their records got their names, and each of them has its name by
then.
-/

namespace RequestDocs

variable {g : TypeGraph} {drained ids : List TypeId} {id : TypeId} {s t : RunState}

/-- The records drained and those pending, one after the other, are those ever queued and those with
names, in the same order. -/
structure InOrder (drained : List TypeId) (s : RunState) : Prop where
  named : s.registry.named = s.queue.seen
  taken : drained ++ s.queue.pending = s.queue.seen

namespace InOrder

theorem start (stats : Stats) : InOrder [] (.start stats) := ⟨rfl, rfl⟩

theorem announce (h : InOrder drained s) (hgiven : s.registry.Gives ids t.registry)
    (hqueue : t.queue = s.queue.announce ids) : InOrder drained t where
  named := by rw [hgiven.named, hqueue, VisitQueue.seen_announce, h.named]
  taken := by
    obtain ⟨fresh, hpending, hseen, -⟩ := s.queue.pending_announce ids
    rw [hqueue, hpending, hseen, ← List.append_assoc, h.taken]

theorem dequeue {queue : VisitQueue TypeId} (h : InOrder drained s)
    (hnext : s.queue.dequeue = (some id, queue)) : InOrder (drained ++ [id]) { s with queue } := by
  obtain ⟨hpending, hseen⟩ := VisitQueue.dequeue_some hnext
  have htaken := h.taken
  rw [hpending, List.append_cons, ← hseen] at htaken
  exact ⟨h.named.trans hseen.symm, htaken⟩

theorem exists_name (h : InOrder drained s) (hid : id ∈ drained) :
    ∃ name, s.registry.nameOf? id = some name := by
  have hmem : id ∈ s.registry.named := by
    rw [h.named, ← h.taken]
    exact List.mem_append_left _ hid
  cases hname : s.registry.nameOf? id with
  | none => exact absurd hmem (NameRegistry.nameOf?_eq_none_iff.1 hname)
  | some name => exact ⟨name, rfl⟩

end InOrder

namespace Run

theorem nameFor_of_named [Spelling]
    {name : String} (h : s.registry.nameOf? id = some name) (hint : String) :
    nameFor g id hint s = .ok name s := by
  have hget : (get : Run RunState) s = .ok s s := rfl
  rw [nameFor, bind_eq_of_ok hget, s.registry.nameFor_of_named g id hint h]
  rfl

theorem synthesis_inOrder {α : Type} {step : Synthesis α} {kinds : List Issue.Kind} {P : α → Prop}
    (hstep : Synthesis.Behaves step ids kinds P) (h : InOrder drained s) :
    Completes (synthesis step) s fun _ t => InOrder drained t := by
  obtain ⟨a, u, hrun, -, hmoves⟩ := (hstep ⟨s.registry, s.queue, []⟩).exists_ok
  simp only [Completes, Ends, synthesis, hrun]
  exact h.announce hmoves.given hmoves.queue

theorem assemble_inOrder [Spelling] (hg : g.Closed) (options : AssemblyOptions) {op : Operation}
    (hbody : ∀ b ∈ op.body, g.Has b.type) (h : InOrder drained s) :
    Completes (assemble g options op) s fun _ t => InOrder drained t := by
  obtain ⟨survey, -, hassemble⟩ := op.assemble_behaves hg options hbody
  refine .bind (synthesis_inOrder hassemble h) fun _ t ht => ?_
  refine .bind (M := fun _ u => InOrder drained u) (.modify ⟨ht.named, ht.taken⟩) fun _ u hu => ?_
  exact .bind (M := fun _ v => InOrder drained v) (.modify ⟨hu.named, hu.taken⟩) fun _ _ hv => .pure hv

theorem nameDependency_inOrder [Spelling]
    (model : String) (hid : g.Has id) (h : InOrder drained s) :
    Completes (nameDependency g model id) s fun _ t => InOrder drained t := by
  have hnamed : Completes (nameFor g id (model ++ "Item")) s fun _ t =>
      s.registry.Gives [id] t.registry ∧ t.queue = s.queue := by
    refine .get_bind (.lift_bind (s.registry.nameFor_ok hid _).eqn
      fun (name, registry) ⟨hname, _⟩ => ?_)
    exact .bind (M := fun _ t => t = { s with registry }) (.set rfl) fun _ t ht =>
      .pure ⟨ht ▸ NameRegistry.nameFor_gives hname, ht ▸ rfl⟩
  refine .bind hnamed fun name t ⟨hgiven, hqueue⟩ => ?_
  have hjoined : InOrder drained { t with queue := (t.queue.enqueue id).2 } :=
    h.announce hgiven (by simp [hqueue])
  exact .bind (M := fun _ u => InOrder drained u) (.modify hjoined) fun _ _ hu => .pure hu

theorem model_inOrder [Spelling] (hg : g.Closed) (maxDepth : Nat) (hid : g.IsRecord id)
    (hdrained : id ∈ drained) (h : InOrder drained s) :
    Completes (model g maxDepth id) s fun _ t => InOrder drained t := by
  obtain ⟨name, hname⟩ := h.exists_name hdrained
  refine .bind (.of_eq (nameFor_of_named hname "Model")) fun given t ⟨hgiven, hsame⟩ => ?_
  subst hgiven hsame
  obtain ⟨survey, -, hsynthesize⟩ := Synthesis.synthesize_behaves hg maxDepth hid.has
  refine .bind (synthesis_inOrder (hsynthesize given) h) fun (lines, issues) t ht => ?_
  refine .bind (M := fun _ u => InOrder drained u) (.modify ⟨ht.named, ht.taken⟩) fun _ u hu => ?_
  refine .lift_bind (hg.nestedRecords_ok hid.has).eqn fun nested ⟨hnests, _⟩ => ?_
  have hnested (r : TypeId) (hr : r ∈ nested) : g.Has r :=
    (hg.isRecord_of_nests (.single ⟨nested, hnests, hr⟩) hid).has
  have hall : Completes (nested.mapM (nameDependency g given)) u fun _ v => InOrder drained v :=
    .mapM_keeps nested u hu fun r hr _ hv => nameDependency_inOrder given (hnested r hr) hv
  exact .bind hall fun _ v hv => .pure hv

/-- The states of a run with the records drained so far: at its start, after every operation, and in
a drain after every round and at its end. -/
inductive Reached [Spelling] (g : TypeGraph) : List TypeId → RunState → Prop
  | start (stats : Stats) : Reached g [] (.start stats)
  | assembled {drained : List TypeId} {s t : RunState} {options : AssemblyOptions} {op : Operation}
      {document : RequestDocument} (h : Reached g drained s) (hbody : ∀ b ∈ op.body, g.Has b.type)
      (hrun : assemble g options op s = .ok document t) : Reached g drained t
  | skipped {drained : List TypeId} {s t : RunState} {op : Operation} {reason : String}
      (h : Reached g drained s) (hrun : skip op reason s = .ok ⟨⟩ t) : Reached g drained t
  | round {drained : List TypeId} {s t : RunState} {maxDepth : Nat} {id : TypeId}
      {queue : VisitQueue TypeId} {m : Model} (h : Reached g drained s)
      (hnext : s.queue.dequeue = (some id, queue))
      (hrun : model g maxDepth id { s with queue } = .ok m t) : Reached g (drained ++ [id]) t
  | emptied {drained : List TypeId} {s : RunState} (count : Nat) (h : Reached g drained s)
      (hempty : s.queue.pending = []) :
      Reached g drained { s with stats := s.stats.recordModels count }

namespace Reached

theorem progress [Spelling] (hg : g.Closed) (h : Reached g drained s) :
    ∃ roots, Progress g roots drained s.queue := by
  induction h with
  | start stats => exact ⟨_, .empty⟩
  | @assembled drained s t options op document h hbody hrun ih =>
    obtain ⟨roots, hprogress⟩ := ih
    have hperform : (RunStep.assemble options op).perform g s = .ok [] t :=
      bind_eq_of_ok hrun
    have hrange : (RunStep.assemble options op).InRange g := hbody
    have hadds := (RunStep.perform_ok hg hrange s hprogress).of_ok hperform
    exact ⟨_, by simpa using hadds.progress⟩
  | skipped h hrun ih =>
    cases hrun
    exact ih
  | round h hnext hrun ih =>
    obtain ⟨roots, hprogress⟩ := ih
    exact ⟨roots, ((round_ok hg _ hprogress hnext).of_ok hrun).progress⟩
  | emptied count h hempty ih => exact ih

theorem inOrder [Spelling] (hg : g.Closed) (h : Reached g drained s) : InOrder drained s := by
  induction h with
  | start stats => exact .start stats
  | assembled h hbody hrun ih => exact (assemble_inOrder hg _ hbody ih).of_ok hrun
  | skipped h hrun ih =>
    cases hrun
    exact ⟨ih.named, ih.taken⟩
  | @round drained s t maxDepth id queue m h hnext hrun ih =>
    obtain ⟨roots, hprogress⟩ := h.progress hg
    have hnextInOrder := ih.dequeue hnext
    have hid : g.IsRecord id := by
      apply hprogress.records id
      rw [hprogress.seen, (VisitQueue.dequeue_some hnext).1]
      exact .inr List.mem_cons_self
    exact (model_inOrder hg maxDepth hid (by simp) hnextInOrder).of_ok hrun
  | emptied count h hempty ih => exact ⟨ih.named, ih.taken⟩

private theorem drainQueue [Spelling] (maxDepth fuel : Nat) (h : Reached g drained s) :
    Ends (fun _ => True) (drainQueue g maxDepth fuel) s fun models t =>
      Reached g (drained ++ models.map Prod.fst) t ∧ t.queue.pending = [] := by
  induction fuel generalizing drained s with
  | zero => trivial
  | succ fuel ih =>
    unfold Run.drainQueue
    refine .bind (.of_eq (dequeue_eq s)) ?_
    rintro item t ⟨hitem, rfl⟩
    cases item with
    | none =>
      obtain ⟨hempty, hsame⟩ := VisitQueue.dequeue_none hitem.symm
      rw [hsame]
      exact .pure ⟨by simpa using h, hempty⟩
    | some id =>
      refine .bind (.run _ _) fun m t hrun => ?_
      have hround : Reached g (drained ++ [id]) t := h.round (Prod.ext hitem.symm rfl) hrun
      refine .bind (ih hround) ?_
      rintro models u ⟨hlast, hempty⟩
      exact .pure ⟨by simpa using hlast, hempty⟩

/-- Every step of a run completes, and passes through states of the run only. -/
theorem perform [Spelling]
    (hg : g.Closed) (h : Reached g drained s) {step : RunStep} (hstep : step.InRange g) :
    Completes (step.perform g) s fun models t => Reached g (drained ++ models.map Prod.fst) t := by
  obtain ⟨roots, hprogress⟩ := h.progress hg
  obtain ⟨models, t, hrun, -⟩ := (RunStep.perform_ok hg hstep s hprogress).exists_ok
  suffices hreached : Ends (fun _ => True) (step.perform g) s fun models t =>
      Reached g (drained ++ models.map Prod.fst) t by
    have hlast := hreached.of_ok hrun
    simpa only [Completes, Ends, hrun] using hlast
  cases step with
  | assemble options op =>
    refine .bind (.run _ _) fun document t hrun => .pure ?_
    simpa using h.assembled hstep hrun
  | skip op reason =>
    refine .bind (.run _ _) fun _ t hrun => .pure ?_
    simpa using h.skipped hrun
  | drain maxDepth =>
    refine .get_bind (.bind (h.drainQueue maxDepth _) ?_)
    rintro models t ⟨hlast, hempty⟩
    exact .bind (M := fun _ u => Reached g (drained ++ models.map Prod.fst) u)
      (.modify (hlast.emptied models.length hempty)) fun _ _ hu => .pure hu

theorem performAll [Spelling] (hg : g.Closed) (h : Reached g drained s) (steps : List RunStep)
    (hsteps : ∀ step ∈ steps, step.InRange g) :
    Completes (steps.mapM (RunStep.perform g)) s fun answers t =>
      Reached g (drained ++ answers.flatten.map Prod.fst) t := by
  induction steps generalizing drained s with
  | nil => exact .pure (by simpa using h)
  | cons step steps ih =>
    obtain ⟨hfirst, hrest⟩ := List.forall_mem_cons.1 hsteps
    rw [List.mapM_cons]
    refine .bind (h.perform hg hfirst) fun models t ht => ?_
    refine .bind (ih ht hrest) fun answers u hu => .pure ?_
    simpa using hu

/-- In every state of a run the types with names are those ever queued, in the same order. The
records drained are the first of them, so they are drained in the order of their names, and the next
one to drain has its name whatever the hint. Any further steps complete and lead to such a state
again. -/
theorem named_as_queued [Spelling] (hg : g.Closed) (h : Reached g drained s) :
    s.registry.named = s.queue.seen ∧
    drained ++ s.queue.pending = s.registry.named ∧
    (∀ id queue, s.queue.dequeue = (some id, queue) →
      ∃ name, ∀ hint, nameFor g id hint { s with queue } = .ok name { s with queue }) ∧
    ∀ steps : List RunStep, (∀ step ∈ steps, step.InRange g) →
      ∃ answers t, steps.mapM (RunStep.perform g) s = .ok answers t ∧
        Reached g (drained ++ answers.flatten.map Prod.fst) t := by
  have horder := h.inOrder hg
  refine ⟨horder.named, horder.taken.trans horder.named.symm, fun id queue hnext => ?_, fun steps hsteps =>
    (h.performAll hg steps hsteps).exists_ok⟩
  have hdrained : id ∈ drained ++ [id] := List.mem_append_right _ (List.mem_singleton_self id)
  obtain ⟨name, hname⟩ := (horder.dequeue hnext).exists_name hdrained
  exact ⟨name, nameFor_of_named hname⟩

end Reached

attribute [local instance] Spelling.plain

theorem petRun_named_as_queued :
    petGraph.Closed ∧ Reached petGraph [] (.start .zero) ∧
    ∃ answers t, petSteps.mapM (RunStep.perform petGraph) (.start .zero) = .ok answers t ∧
      Reached petGraph (answers.flatten.map Prod.fst) t ∧
      answers.flatten.map Prod.fst ++ t.queue.pending = t.registry.named ∧
      t.registry.named = t.queue.seen := by
  have hsteps : ∀ step ∈ petSteps, step.InRange petGraph := by
    simpa [petSteps, RunStep.InRange] using postOwner_inRange
  have hstart : Reached petGraph [] (.start .zero) := .start .zero
  obtain ⟨-, -, -, hgoOn⟩ := hstart.named_as_queued petGraph_closed
  obtain ⟨answers, t, hrun, hreached⟩ := hgoOn petSteps hsteps
  obtain ⟨hnamed, hdrained, -⟩ := hreached.named_as_queued petGraph_closed
  exact ⟨petGraph_closed, hstart, answers, t, hrun, hreached, hdrained, hnamed⟩

end Run

end RequestDocs
