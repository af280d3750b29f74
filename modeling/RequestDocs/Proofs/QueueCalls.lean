import RequestDocs.Proofs.Occurrences
import RequestDocs.VisitQueue
/-!
# Calls on a visit queue

Whatever calls are made on an empty queue, in whatever order, the items taken out and then those that
are pending are the items offered so far, each once, in the order in which they were first offered.
-/

namespace RequestDocs

variable {α : Type} [DecidableEq α]

inductive QueueCall (α : Type)
  | enqueue (item : α)
  | dequeue
  | hasSeen (item : α)

inductive QueueAnswer (α : Type)
  | accepted (fresh : Bool)
  | taken (item : Option α)
  | known (seen : Bool)

namespace QueueCall

def offered : QueueCall α → List α
  | enqueue item => [item]
  | dequeue | hasSeen _ => []

def perform (q : VisitQueue α) : QueueCall α → QueueAnswer α × VisitQueue α
  | enqueue item => (.accepted (q.enqueue item).1, (q.enqueue item).2)
  | dequeue => (.taken q.dequeue.1, q.dequeue.2)
  | hasSeen item => (.known (q.hasSeen item), q)

end QueueCall

def QueueAnswer.yielded : QueueAnswer α → List α
  | taken item => item.toList
  | accepted _ | known _ => []

namespace VisitQueue

variable {q : VisitQueue α} {offered yielded : List α}

def after (q : VisitQueue α) (calls : List (QueueCall α)) : VisitQueue α :=
  calls.foldl (fun q call => (call.perform q).2) q

def answers (q : VisitQueue α) : List (QueueCall α) → List (QueueAnswer α)
  | [] => []
  | call :: calls => (call.perform q).1 :: answers (call.perform q).2 calls

theorem length_answers (q : VisitQueue α) (calls : List (QueueCall α)) :
    (q.answers calls).length = calls.length := by
  induction calls generalizing q with
  | nil => rfl
  | cons call calls ih => exact congrArg (· + 1) (ih (call.perform q).2)

theorem answers_append (q : VisitQueue α) (calls calls' : List (QueueCall α)) :
    q.answers (calls ++ calls') = q.answers calls ++ (q.after calls).answers calls' := by
  induction calls generalizing q with
  | nil => rfl
  | cons call calls ih => exact congrArg ((call.perform q).1 :: ·) (ih (call.perform q).2)

theorem getElem?_answers (q : VisitQueue α) (calls : List (QueueCall α)) (call : QueueCall α)
    (later : List (QueueCall α)) :
    (q.answers (calls ++ call :: later))[calls.length]? = some (call.perform (q.after calls)).1 := by
  rw [answers_append, List.getElem?_append_right (Nat.le_of_eq (q.length_answers calls)),
    length_answers, Nat.sub_self]
  rfl

/-- What has been seen are the items offered so far, each once, and they are taken out in this order. -/
structure Follows (q : VisitQueue α) (offered yielded : List α) : Prop where
  seen : FirstOccurrences offered q.seen
  order : yielded ++ q.pending = q.seen

namespace Follows

theorem empty : Follows (.empty : VisitQueue α) [] [] where
  seen := ⟨by simp [VisitQueue.empty], .nil⟩
  order := rfl

theorem enqueue (h : q.Follows offered yielded) (item : α) :
    (q.enqueue item).2.Follows (offered ++ [item]) yielded := by
  by_cases hitem : item ∈ q.seen
  · rw [enqueue_of_mem hitem]
    exact ⟨h.seen.concat_of_mem ((h.seen.mem_iff item).1 hitem), h.order⟩
  · rw [enqueue_of_not_mem hitem]
    constructor
    · exact h.seen.concat_of_not_mem fun hmem => hitem ((h.seen.mem_iff item).2 hmem)
    · rw [← List.append_assoc, h.order]

theorem dequeue (h : q.Follows offered yielded) :
    q.dequeue.2.Follows offered (yielded ++ q.dequeue.1.toList) := by
  obtain ⟨seen, pending⟩ := q
  cases pending with
  | nil => exact ⟨h.seen, by simpa [VisitQueue.dequeue] using h.order⟩
  | cons item rest => exact ⟨h.seen, by simpa [VisitQueue.dequeue] using h.order⟩

theorem perform (h : q.Follows offered yielded) (call : QueueCall α) :
    (call.perform q).2.Follows (offered ++ call.offered) (yielded ++ (call.perform q).1.yielded) := by
  cases call with
  | enqueue item =>
    simpa [QueueCall.offered, QueueCall.perform, QueueAnswer.yielded] using h.enqueue item
  | dequeue => simpa [QueueCall.offered, QueueCall.perform, QueueAnswer.yielded] using h.dequeue
  | hasSeen item => simpa [QueueCall.offered, QueueCall.perform, QueueAnswer.yielded] using h

theorem after (h : q.Follows offered yielded) (calls : List (QueueCall α)) :
    (q.after calls).Follows (offered ++ calls.flatMap QueueCall.offered)
      (yielded ++ (q.answers calls).flatMap QueueAnswer.yielded) := by
  induction calls generalizing q offered yielded with
  | nil => simpa [VisitQueue.after, answers] using h
  | cons call calls ih =>
    have hrest := ih (h.perform call)
    rw [List.append_assoc, List.append_assoc] at hrest
    exact hrest

theorem enqueue_fresh (h : q.Follows offered yielded) (item : α) :
    (q.enqueue item).1 = decide (item ∉ offered) := by
  rw [Bool.eq_iff_iff, enqueue_accepts_iff, decide_eq_true_iff, h.seen.mem_iff]

theorem hasSeen_eq (h : q.Follows offered yielded) (item : α) :
    q.hasSeen item = decide (item ∈ yielded ++ q.pending) := by
  rw [hasSeen, h.order, List.contains_eq_mem]

end Follows

omit [DecidableEq α] in
theorem dequeue_eq_getElem? (q : VisitQueue α) (yielded : List α) :
    q.dequeue.1 = (yielded ++ q.pending)[yielded.length]? := by
  rw [List.getElem?_append_right (Nat.le_refl _), Nat.sub_self]
  obtain ⟨seen, pending⟩ := q
  cases pending <;> rfl

def offeredBy (calls : List (QueueCall α)) : List α := calls.flatMap QueueCall.offered

def yieldedBy (calls : List (QueueCall α)) : List α :=
  (VisitQueue.empty.answers calls).flatMap QueueAnswer.yielded

/-- The items taken out and then the pending ones are the items offered, each once, in the order in which
they were first offered; as many have been seen. The call that comes next returns whether the item it
offers has not been offered before, whether the item it asks for is among those, or the first of them
that has not been taken out. -/
theorem answers_history (calls later : List (QueueCall α)) :
    FirstOccurrences (offeredBy calls) (yieldedBy calls ++ (empty.after calls).pending) ∧
    (yieldedBy calls).Nodup ∧
    (empty.after calls).seenLength = (yieldedBy calls ++ (empty.after calls).pending).length ∧
    (∀ item, (empty.answers (calls ++ .enqueue item :: later))[calls.length]? =
      some (.accepted (decide (item ∉ offeredBy calls)))) ∧
    (∀ item, (empty.answers (calls ++ .hasSeen item :: later))[calls.length]? =
      some (.known (decide (item ∈ yieldedBy calls ++ (empty.after calls).pending)))) ∧
    (empty.answers (calls ++ .dequeue :: later))[calls.length]? =
      some (.taken (yieldedBy calls ++ (empty.after calls).pending)[(yieldedBy calls).length]?) := by
  have h : (VisitQueue.empty.after calls).Follows (offeredBy calls) (yieldedBy calls) :=
    Follows.empty.after calls
  have horder : FirstOccurrences (offeredBy calls) (yieldedBy calls ++ (empty.after calls).pending) := by
    rw [h.order]
    exact h.seen
  refine ⟨horder, horder.nodup.of_append_left, ?_, ?_, ?_, ?_⟩
  · rw [seenLength, h.order]
  · intro item
    rw [getElem?_answers, QueueCall.perform, h.enqueue_fresh]
  · intro item
    rw [getElem?_answers, QueueCall.perform, h.hasSeen_eq]
  · rw [getElem?_answers, QueueCall.perform, dequeue_eq_getElem?]

/-- An item that has been taken out is not accepted again. -/
example : (empty : VisitQueue Nat).answers [.enqueue 7, .dequeue, .enqueue 7, .dequeue] =
    [.accepted true, .taken (some 7), .accepted false, .taken none] := rfl

end VisitQueue

end RequestDocs
