import Mathlib.Data.List.Forall2
import RequestDocs.Sample.Synthesis
/-!
# Outcomes of steps

What a computation that may meet a fault, and a step that may change a state besides, come to. Both
are followed through `do` blocks one bind at a time.
-/

namespace RequestDocs

section Results

variable {α β : Type}

theorem ok_of_toOption {x : Except Fault α} {a : α} (h : x.toOption = some a) : x = .ok a := by
  cases x with
  | ok => simpa [Except.toOption] using h
  | error => simp [Except.toOption] at h

/-- The computation meets no fault, and its result has a property. -/
def Succeeds (x : Except Fault α) (P : α → Prop) : Prop := ∃ a, x = .ok a ∧ P a

namespace Succeeds

theorem pure {a : α} {P : α → Prop} (h : P a) : Succeeds (.ok a) P := ⟨a, rfl, h⟩

theorem mono {x : Except Fault α} {P Q : α → Prop} (h : Succeeds x P) (hPQ : ∀ a, P a → Q a) :
    Succeeds x Q := by
  obtain ⟨a, ha, hP⟩ := h
  exact ⟨a, ha, hPQ a hP⟩

theorem and {x : Except Fault α} {P Q : α → Prop} (h : Succeeds x P) (h' : Succeeds x Q) :
    Succeeds x fun a => P a ∧ Q a := by
  obtain ⟨a, rfl, hP⟩ := h
  obtain ⟨b, hb, hQ⟩ := h'
  cases hb
  exact ⟨a, rfl, hP, hQ⟩

theorem eqn {x : Except Fault α} {P : α → Prop} (h : Succeeds x P) :
    Succeeds x fun a => x = .ok a ∧ P a := by
  obtain ⟨a, ha, hP⟩ := h
  exact ⟨a, ha, ha, hP⟩

theorem bind {x : Except Fault α} {f : α → Except Fault β} {P : α → Prop} {Q : β → Prop}
    (hx : Succeeds x P) (hf : ∀ a, P a → Succeeds (f a) Q) : Succeeds (x >>= f) Q := by
  obtain ⟨a, rfl, hP⟩ := hx
  exact hf a hP

theorem mapM {f : α → Except Fault β} {P : β → Prop} (xs : List α)
    (h : ∀ x ∈ xs, Succeeds (f x) P) : Succeeds (xs.mapM f) fun ys => ∀ y ∈ ys, P y := by
  induction xs with
  | nil => exact pure (by simp)
  | cons x xs ih =>
    rw [List.mapM_cons]
    refine bind (h x List.mem_cons_self) fun y hy => ?_
    refine bind (ih fun x' hx' => h x' (List.mem_cons_of_mem x hx')) fun ys hys => ?_
    refine pure fun y' hy' => ?_
    rcases List.mem_cons.1 hy' with rfl | hy'
    · exact hy
    · exact hys y' hy'

theorem mapM_forall₂ {f : α → Except Fault β} {R : α → β → Prop} (xs : List α)
    (h : ∀ x ∈ xs, Succeeds (f x) (R x)) : Succeeds (xs.mapM f) (List.Forall₂ R xs) := by
  induction xs with
  | nil => exact pure .nil
  | cons x xs ih =>
    rw [List.mapM_cons]
    refine bind (h x List.mem_cons_self) fun y hy => ?_
    exact bind (ih fun x' hx' => h x' (List.mem_cons_of_mem x hx')) fun ys hys => pure (.cons hy hys)

theorem foldlM {f : β → α → Except Fault β} {I : β → Prop} (xs : List α) (init : β) (h₀ : I init)
    (h : ∀ x ∈ xs, ∀ b, I b → Succeeds (f b x) I) : Succeeds (xs.foldlM f init) I := by
  induction xs generalizing init with
  | nil => exact pure h₀
  | cons x xs ih =>
    rw [List.foldlM_cons]
    refine bind (h x List.mem_cons_self init h₀) fun b hb => ?_
    exact ih b hb fun x' hx' => h x' (List.mem_cons_of_mem x hx')

end Succeeds

end Results

section Steps

variable {σ α β : Type} {fault : Fault → Prop}

/-- From a state, the step ends in a fault of some kind, or in a result and a state that are related
by `post`. -/
def Ends (fault : Fault → Prop) (step : EStateM Fault σ α) (s : σ) (post : α → σ → Prop) : Prop :=
  match step s with
  | .ok a t => post a t
  | .error f _ => fault f

namespace Ends

theorem pure {a : α} {s : σ} {post : α → σ → Prop} (h : post a s) :
    Ends fault (Pure.pure a : EStateM Fault σ α) s post := h

theorem mono {step : EStateM Fault σ α} {s : σ} {post post' : α → σ → Prop}
    (h : Ends fault step s post) (hpost : ∀ a t, post a t → post' a t) :
    Ends fault step s post' := by
  unfold Ends at h ⊢
  split at h
  · exact hpost _ _ h
  · exact h

theorem bind {step : EStateM Fault σ α} {next : α → EStateM Fault σ β} {s : σ}
    {M : α → σ → Prop} {post : β → σ → Prop} (h : Ends fault step s M)
    (hnext : ∀ a t, M a t → Ends fault (next a) t post) :
    Ends fault (step >>= next) s post := by
  unfold Ends at h
  change Ends fault (EStateM.bind step next) s post
  unfold Ends EStateM.bind
  cases hs : step s with
  | ok a t =>
    rw [hs] at h
    exact hnext a t h
  | error f t =>
    rw [hs] at h
    exact h

theorem of_eq {step : EStateM Fault σ α} {s t : σ} {a : α} (h : step s = .ok a t) :
    Ends fault step s fun b u => b = a ∧ u = t := by
  unfold Ends
  rw [h]
  exact ⟨rfl, rfl⟩

theorem run (step : EStateM Fault σ α) (s : σ) :
    Ends (fun _ => True) step s fun a t => step s = .ok a t := by
  unfold Ends
  split
  · next h => exact h
  · trivial

theorem anyhow (step : EStateM Fault σ α) (s : σ) : Ends (fun _ => True) step s fun _ _ => True := by
  unfold Ends
  split <;> trivial

theorem get_bind {next : σ → EStateM Fault σ β} {s : σ} {post : β → σ → Prop}
    (h : Ends fault (next s) s post) : Ends fault (get >>= next) s post := h

theorem set {s t : σ} {post : PUnit → σ → Prop} (h : post ⟨⟩ t) :
    Ends fault (MonadStateOf.set t : EStateM Fault σ PUnit) s post := h

theorem modify {change : σ → σ} {s : σ} {post : PUnit → σ → Prop} (h : post ⟨⟩ (change s)) :
    Ends fault (modify change : EStateM Fault σ PUnit) s post := h

theorem lift {x : Except Fault α} {s : σ} {post : α → σ → Prop} {P : α → Prop}
    (h : Succeeds x P) (hpost : ∀ a, P a → post a s) :
    Ends fault (liftFault x : EStateM Fault σ α) s post := by
  obtain ⟨a, rfl, hP⟩ := h
  exact hpost a hP

theorem lift_bind {x : Except Fault α} {next : α → EStateM Fault σ β} {s : σ} {P : α → Prop}
    {post : β → σ → Prop} (h : Succeeds x P) (hnext : ∀ a, P a → Ends fault (next a) s post) :
    Ends fault (liftFault x >>= next) s post := by
  obtain ⟨a, rfl, hP⟩ := h
  exact hnext a hP

theorem lift_cases {x : Except Fault α} {next : α → EStateM Fault σ β} {s : σ}
    {post : β → σ → Prop} (hfault : ∀ f, x = .error f → fault f)
    (hnext : ∀ a, x = .ok a → Ends fault (next a) s post) :
    Ends fault (liftFault x >>= next) s post := by
  cases x with
  | ok a => exact hnext a rfl
  | error f => exact hfault f rfl

theorem ite {c : Prop} {_ : Decidable c} {step step' : EStateM Fault σ α} {s : σ}
    {post : α → σ → Prop} (h : c → Ends fault step s post) (h' : ¬c → Ends fault step' s post) :
    Ends fault (if c then step else step') s post := by
  split
  · next hc => exact h hc
  · next hc => exact h' hc

theorem mapM {f : α → EStateM Fault σ β} {I : σ → Prop} {P : β → Prop} (xs : List α) (s : σ)
    (hs : I s) (h : ∀ x ∈ xs, ∀ t, I t → Ends fault (f x) t fun y t' => P y ∧ I t') :
    Ends fault (xs.mapM f) s fun ys t => (∀ y ∈ ys, P y) ∧ I t := by
  induction xs generalizing s with
  | nil => exact pure ⟨by simp, hs⟩
  | cons x xs ih =>
    rw [List.mapM_cons]
    refine bind (h x List.mem_cons_self s hs) fun y t ⟨hy, ht⟩ => ?_
    refine bind (ih t ht fun x' hx' => h x' (List.mem_cons_of_mem x hx')) fun ys t' ⟨hys, ht'⟩ => ?_
    refine pure ⟨fun y' hy' => ?_, ht'⟩
    rcases List.mem_cons.1 hy' with rfl | hy'
    · exact hy
    · exact hys y' hy'

theorem mapM_keeps {f : α → EStateM Fault σ β} {I : σ → Prop} (xs : List α) (s : σ) (hs : I s)
    (h : ∀ x ∈ xs, ∀ t, I t → Ends fault (f x) t fun _ u => I u) :
    Ends fault (xs.mapM f) s fun _ t => I t := by
  have hall : Ends fault (xs.mapM f) s fun ys t => (∀ y ∈ ys, True) ∧ I t :=
    mapM xs s hs fun x hx t ht => (h x hx t ht).mono fun _ _ hu => ⟨trivial, hu⟩
  exact hall.mono fun _ _ ht => ht.2

theorem mapM_forall₂ {f : α → EStateM Fault σ β} {R : α → β → Prop} (xs : List α) (s : σ)
    (h : ∀ x ∈ xs, ∀ t, Ends fault (f x) t fun y _ => R x y) :
    Ends fault (xs.mapM f) s fun ys _ => List.Forall₂ R xs ys := by
  induction xs generalizing s with
  | nil => exact pure .nil
  | cons x xs ih =>
    rw [List.mapM_cons]
    apply bind (h x List.mem_cons_self s)
    intro y t hy
    apply bind (ih t fun x' hx' => h x' (List.mem_cons_of_mem x hx'))
    intro ys _ hys
    exact pure (.cons hy hys)

end Ends

abbrev Completes (step : EStateM Fault σ α) (s : σ) (post : α → σ → Prop) : Prop :=
  Ends (fun _ => False) step s post

theorem Ends.of_ok {step : EStateM Fault σ α} {s t : σ} {a : α} {post : α → σ → Prop}
    (h : Ends fault step s post) (hs : step s = .ok a t) : post a t := by
  unfold Ends at h
  rwa [hs] at h

theorem Completes.exists_ok {step : EStateM Fault σ α} {s : σ} {post : α → σ → Prop}
    (h : Completes step s post) : ∃ a t, step s = .ok a t ∧ post a t := by
  unfold Completes Ends at h
  split at h
  · next a t hs => exact ⟨a, t, hs, h⟩
  · exact h.elim

theorem Completes.and {step : EStateM Fault σ α} {s : σ} {post post' : α → σ → Prop}
    (h : Completes step s post) (h' : Ends fault step s post') :
    Completes step s fun a t => post a t ∧ post' a t := by
  obtain ⟨a, t, hrun, hpost⟩ := h.exists_ok
  refine (Ends.of_eq hrun).mono ?_
  rintro _ _ ⟨rfl, rfl⟩
  exact ⟨hpost, h'.of_ok hrun⟩

theorem bind_eq_of_ok {step : EStateM Fault σ α} {next : α → EStateM Fault σ β} {s t : σ} {a : α}
    (h : step s = .ok a t) : (step >>= next) s = next a t := by
  change EStateM.bind step next s = _
  rw [EStateM.bind, h]

theorem run'_of_ok {step : EStateM Fault σ α} {s t : σ} {a : α} (h : step s = .ok a t) :
    step.run' s = some a := by
  unfold EStateM.run' EStateM.run
  rw [h]

theorem exists_ok_of_run' {step : EStateM Fault σ α} {s : σ} (h : (step.run' s).isSome) :
    ∃ a t, step s = .ok a t := by
  unfold EStateM.run' EStateM.run at h
  cases hs : step s with
  | ok a t => exact ⟨a, t, rfl⟩
  | error f t =>
    rw [hs] at h
    cases h

/-- Where another step comes to the same whenever the result has a property, so does the map of the
other step whenever all its results have it. -/
theorem Ends.mapM_same {f f' : α → EStateM Fault σ β} {P : β → Prop}
    (h : ∀ x t, Ends (fun _ => True) (f x) t fun y u => P y → f' x t = .ok y u) (xs : List α) (s : σ) :
    Ends (fun _ => True) (xs.mapM f) s fun ys t => (∀ y ∈ ys, P y) → xs.mapM f' s = .ok ys t := by
  induction xs generalizing s with
  | nil => exact pure fun _ => rfl
  | cons x xs ih =>
    rw [List.mapM_cons, List.mapM_cons]
    refine bind (h x s) fun y t hfirst => bind (ih t) fun ys u hrest => pure fun hall => ?_
    obtain ⟨hy, hys⟩ := List.forall_mem_cons.1 hall
    rw [bind_eq_of_ok (hfirst hy), bind_eq_of_ok (hrest hys)]
    rfl

end Steps

end RequestDocs
