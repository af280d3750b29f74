import RequestDocs.Proofs.Histories
import RequestDocs.Proofs.PrintedSamples
/-!
# Repeated samples

A root that has been sampled in a run is sampled to the same lines at every later point of it. The
records in its sample have their names by then, which stay, and have been queued.
-/

namespace RequestDocs

variable {g : TypeGraph}

theorem Drawn.lines_eq [Spelling]
    {names : NameRegistry} {bound : Nat} {id : TypeId} {sample sample' : Sample}
    (h : Drawn g names bound [] id sample) (h' : Drawn g names bound [] id sample') :
    sample.lines = sample'.lines := by
  cases h with
  | line hleaf =>
    cases h' with
    | line hleaf' => rw [hleaf.unique hleaf']
    | block hrecord | cutOff hrecord => exact absurd hrecord hleaf.not_isRecord
    | recursive _ _ hopened => exact absurd hopened List.not_mem_nil
  | block hrecord _ _ hroom hinner hlines htexts =>
    cases h' with
    | line hleaf => exact absurd hrecord hleaf.not_isRecord
    | block _ _ _ _ hinner' hlines' htexts' =>
      cases hinner.symm.trans hinner'
      cases hlines.unique hlines'
      have hsame := htexts.symm.trans htexts'
      rw [List.length_nil] at hsame
      rw [Sample.lines, Sample.lines, hsame]
    | recursive _ _ hopened => exact absurd hopened List.not_mem_nil
    | cutOff _ _ _ hfull => omega
  | recursive _ _ hopened => exact absurd hopened List.not_mem_nil
  | cutOff hrecord hname _ hfull =>
    cases h' with
    | line hleaf => exact absurd hrecord hleaf.not_isRecord
    | block _ _ _ hroom => omega
    | recursive _ _ hopened => exact absurd hopened List.not_mem_nil
    | cutOff _ hname' =>
      cases hname.symm.trans hname'
      rfl

namespace Synthesis

variable {s t u : SynthesisState} {root : TypeId}

/-- The states that a run may come to: roots are sampled, types named, ids queued and taken out
again, in any order. Each document has issues of its own. -/
inductive Later [Spelling] (g : TypeGraph) (s : SynthesisState) : SynthesisState → Prop
  | refl : Later g s s
  | sampled {t u : SynthesisState} {maxDepth : Nat} {hint : String} {root : TypeId}
      {lines : List String} (h : Later g s t)
      (hrun : synthesize g maxDepth hint root t = .ok lines u) : Later g s u
  | named {t : SynthesisState} {id : TypeId} {hint name : String} {registry : NameRegistry}
      (h : Later g s t) (hname : t.registry.nameFor g id hint = .ok (name, registry)) :
      Later g s { t with registry }
  | queued {t : SynthesisState} (id : TypeId) (h : Later g s t) :
      Later g s { t with queue := (t.queue.enqueue id).2 }
  | dequeued {t : SynthesisState} (h : Later g s t) :
      Later g s { t with queue := t.queue.dequeue.2 }
  | collected {t : SynthesisState} (issues : List Issue) (h : Later g s t) :
      Later g s { t with issues }

theorem has_of_synthesize [Spelling] {maxDepth : Nat} {hint : String} {lines : List String}
    (hrun : synthesize g maxDepth hint root s = .ok lines t) : g.Has root := by
  cases hnode : g.get root with
  | ok node => exact TypeGraph.has_of_get hnode
  | error fault =>
    have hfault : synthesize g maxDepth hint root s = .error fault s := by
      unfold synthesize sample sampleBelow
      rw [hnode]
      rfl
    cases hrun.symm.trans hfault

namespace Later

theorem keeps [Spelling] (hg : g.Closed) (h : Later g s t) : s.registry.Keeps t.registry := by
  induction h with
  | refl => exact .refl _
  | sampled _ hrun ih =>
    obtain ⟨survey, -, hbehaves⟩ := synthesize_behaves hg _ (has_of_synthesize hrun)
    exact ih.trans ((hbehaves _ _).of_ok hrun).2.names
  | named _ hname ih => exact ih.trans (NameRegistry.keeps_of_nameFor hname)
  | queued _ _ ih | dequeued _ ih | collected _ _ ih => exact ih

theorem seen_subset [Spelling] (hg : g.Closed) (h : Later g s t) : s.queue.seen ⊆ t.queue.seen := by
  induction h with
  | refl => exact List.Subset.refl _
  | sampled _ hrun ih =>
    obtain ⟨survey, -, hbehaves⟩ := synthesize_behaves hg _ (has_of_synthesize hrun)
    intro id hid
    rw [((hbehaves _ _).of_ok hrun).2.queue]
    exact (VisitQueue.mem_seen_announce _ _ _).2 (.inl (ih hid))
  | queued id _ ih => exact fun x hx => (VisitQueue.mem_seen_enqueue _ _ _).2 (.inl (ih hx))
  | dequeued _ ih =>
    rw [VisitQueue.seen_dequeue]
    exact ih
  | named _ _ ih | collected _ _ ih => exact ih

end Later

end Synthesis

namespace Run

open Synthesis (Later)

variable {s₀ : SynthesisState} {s : RunState} {id : TypeId}

def Since [Spelling] (g : TypeGraph) (s₀ : SynthesisState) (s : RunState) : Prop :=
  Later g s₀ ⟨s.registry, s.queue, []⟩

abbrev StaysSince [Spelling]
    {α : Type} (g : TypeGraph) (s₀ : SynthesisState) (step : Run α) (s : RunState) :
    Prop :=
  Ends (fun _ => True) step s fun _ t => Since g s₀ t

private theorem record_since [Spelling] (change : Stats → Stats) (h : Since g s₀ s) :
    StaysSince g s₀ (record change) s :=
  .modify h

private theorem synthesis_since [Spelling] {α : Type} {step : Synthesis α}
    (hstep : Ends (fun _ => True) step ⟨s.registry, s.queue, []⟩ fun _ t => Later g s₀ t) :
    StaysSince g s₀ (synthesis step) s := by
  unfold StaysSince Ends synthesis
  cases hrun : step ⟨s.registry, s.queue, []⟩ with
  | ok a t => exact (hstep.of_ok hrun).collected []
  | error fault t => trivial

private theorem assemble_since [Spelling]
    (options : AssemblyOptions) (op : Operation) (h : Since g s₀ s) :
    StaysSince g s₀ (assemble g options op) s := by
  have hbody : Ends (fun _ => True) (op.bodySection g options.maxDepth) ⟨s.registry, s.queue, []⟩
      fun _ t => Later g s₀ t := by
    cases hsampled : op.sampledType? with
    | none =>
      rw [Operation.bodySection_of_placeholder hsampled]
      exact .pure h
    | some root =>
      rw [Operation.bodySection_of_sampledType hsampled]
      exact .bind (.run _ _) fun lines t hrun => .pure (.sampled h hrun)
  have hdocument : Ends (fun _ => True) (RequestDocs.assemble g options op)
      ⟨s.registry, s.queue, []⟩ fun _ t => Later g s₀ t := by
    rw [Operation.assemble_eq]
    exact .bind hbody fun _ t ht => .pure ht
  refine .bind (synthesis_since hdocument) fun _ t ht => .bind (record_since _ ht) fun _ u hu => ?_
  exact .bind (record_since _ hu) fun _ v hv => .pure hv

private theorem nameFor_since [Spelling] (id : TypeId) (hint : String) (h : Since g s₀ s) :
    StaysSince g s₀ (nameFor g id hint) s := by
  refine .get_bind (.lift_cases (fun _ _ => trivial) fun (name, registry) hname => ?_)
  exact .bind (M := fun _ t => Since g s₀ t) (.set (.named h hname)) fun _ t ht => .pure ht

private theorem nameDependency_since [Spelling] (model : String) (id : TypeId) (h : Since g s₀ s) :
    StaysSince g s₀ (nameDependency g model id) s := by
  refine .bind (nameFor_since id _ h) fun name t ht => ?_
  exact .bind (M := fun _ u => Since g s₀ u) (.modify (.queued id ht)) fun _ u hu => .pure hu

private theorem model_since [Spelling] (maxDepth : Nat) (id : TypeId) (h : Since g s₀ s) :
    StaysSince g s₀ (model g maxDepth id) s := by
  refine .bind (nameFor_since id _ h) fun name t ht => ?_
  have hsampled := synthesis_since ((Ends.run (Synthesis.synthesize g maxDepth name id)
    ⟨t.registry, t.queue, []⟩).mono fun lines u hrun => .sampled ht hrun)
  refine .bind hsampled fun _ u hu => .bind (record_since _ hu) fun _ v hv => ?_
  refine .lift_cases (fun _ _ => trivial) fun nested _ => ?_
  have hnested : StaysSince g s₀ (nested.mapM (nameDependency g name)) v :=
    .mapM_keeps nested v hv fun r _ w hw => nameDependency_since name r hw
  exact .bind hnested fun _ w hw => .pure hw

private theorem drainQueue_since [Spelling] (maxDepth fuel : Nat) (h : Since g s₀ s) :
    StaysSince g s₀ (drainQueue g maxDepth fuel) s := by
  induction fuel generalizing s with
  | zero => trivial
  | succ fuel ih =>
    unfold drainQueue
    refine .bind (.of_eq (dequeue_eq s)) ?_
    rintro item t ⟨-, rfl⟩
    have ht : Since g s₀ { s with queue := s.queue.dequeue.2 } := .dequeued h
    cases item with
    | none => exact .pure ht
    | some id =>
      refine .bind (model_since maxDepth id ht) fun m u hu => .bind (ih hu) fun models v hv => ?_
      exact .pure hv

theorem perform_since [Spelling] (step : RunStep) (h : Since g s₀ s) :
    StaysSince g s₀ (step.perform g) s := by
  cases step with
  | assemble options op => exact .bind (assemble_since options op h) fun _ t ht => .pure ht
  | skip op reason => exact .bind (record_since _ h) fun _ t ht => .pure ht
  | drain maxDepth =>
    refine .get_bind (.bind (drainQueue_since maxDepth _ h) fun models t ht => ?_)
    exact .bind (record_since _ ht) fun _ u hu => .pure hu

theorem performAll_since [Spelling] (steps : List RunStep) (h : Since g s₀ s) :
    StaysSince g s₀ (steps.mapM (RunStep.perform g)) s :=
  .mapM_keeps steps s h fun step _ _ ht => perform_since step ht

end Run

namespace Synthesis

/-- A root that has been sampled has the same lines at every later point, whatever the hint. It gives
no new name and queues nothing. -/
theorem synthesize_again [Spelling]
    (hg : g.Closed) (hroot : g.Has root) (maxDepth : Nat) (hint : String) (s : SynthesisState) :
    ∃ lines t, synthesize g maxDepth hint root s = .ok lines t ∧ ∀ u, Later g t u → ∀ hint',
      ∃ v, synthesize g maxDepth hint' root u = .ok lines v ∧
        v.registry = u.registry ∧ v.queue = u.queue := by
  have hroom : ([] : List TypeId).length + max maxDepth 1 = max maxDepth 1 := Nat.zero_add _
  obtain ⟨survey, -, hbehaves⟩ := sampleBelow_behaves hg (max maxDepth 1) [] hroot
  obtain ⟨tree, t, hrun, -, hmoves⟩ := (hbehaves hint hint s).exists_ok
  refine ⟨tree.lines, t, synthesize_of_sample hrun, fun u hlater hint' => ?_⟩
  obtain ⟨tree', v, hrun', -, hmoves'⟩ := (hbehaves hint' hint' u).exists_ok
  -- All that the second sample announces was announced by the first one.
  have hkeeps := hlater.keeps hg
  have hnamed : survey.announced ⊆ u.registry.named :=
    List.Subset.trans hmoves.given.subset_named hkeeps.named_subset
  have hseen : survey.announced ⊆ u.queue.seen := by
    refine List.Subset.trans (fun id hid => ?_) (hlater.seen_subset hg)
    rw [hmoves.queue]
    exact (VisitQueue.mem_seen_announce _ _ _).2 (.inr hid)
  have hregistry : v.registry = u.registry := hmoves'.given.eq_of_subset hnamed
  have hqueue : v.queue = u.queue := hmoves'.queue.trans (VisitQueue.announce_of_subset hseen)
  -- Both samples show the graph with the names of the later state.
  have hdrawn := ((sampleBelow_drawn hg hroom hroot hint hint s).of_ok hrun).2.mono hkeeps
  have hdrawn' := ((sampleBelow_drawn hg hroom hroot hint' hint' u).of_ok hrun').2
  rw [hregistry] at hdrawn'
  rw [hdrawn.lines_eq hdrawn']
  exact ⟨v, synthesize_of_sample hrun', hregistry, hqueue⟩

attribute [local instance] Spelling.plain

theorem petGraph_again :
    petGraph.Closed ∧ petGraph.Has ⟨0⟩ ∧
    ∃ lines t answers r v, synthesize petGraph 3 "Body" ⟨0⟩ .initial = .ok lines t ∧
      petSteps.mapM (RunStep.perform petGraph) ⟨t.registry, t.queue, .zero⟩ = .ok answers r ∧
      synthesize petGraph 3 "Holder" ⟨0⟩ ⟨r.registry, r.queue, []⟩ = .ok lines v ∧
      v.registry = r.registry ∧ v.queue = r.queue := by
  have hroot : petGraph.Has ⟨0⟩ := by decide
  obtain ⟨lines, t, hrun, hagain⟩ := synthesize_again petGraph_closed hroot 3 "Body" .initial
  have hfirst : Run.synthesis (synthesize petGraph 3 "Body" ⟨0⟩) (.start .zero) =
      .ok (lines, t.issues) ⟨t.registry, t.queue, .zero⟩ := by
    have hstart : synthesize petGraph 3 "Body" ⟨0⟩ ⟨.empty, .empty, []⟩ = .ok lines t := hrun
    simp only [Run.synthesis, RunState.start, hstart]
  have hboth : ((do
      let _ ← Run.synthesis (synthesize petGraph 3 "Body" ⟨0⟩)
      petSteps.mapM (RunStep.perform petGraph)).run' (.start .zero)).isSome := by
    decide +kernel
  obtain ⟨answers, r, hsteps⟩ := exists_ok_of_run' hboth
  rw [bind_eq_of_ok hfirst] at hsteps
  have hsince : Run.Since petGraph t ⟨t.registry, t.queue, .zero⟩ := .collected [] .refl
  have hlater := (Run.performAll_since petSteps hsince).of_ok hsteps
  obtain ⟨v, hrun', hregistry, hqueue⟩ := hagain _ hlater "Holder"
  exact ⟨petGraph_closed, hroot, lines, t, answers, r, v, hrun, hsteps, hrun', hregistry, hqueue⟩

end Synthesis

end RequestDocs
