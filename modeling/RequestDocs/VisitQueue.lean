/-!
# Visit queues

A queue that accepts each item once in its lifetime: what has been taken out is still refused.
-/

namespace RequestDocs

/-- The items ever accepted and those not yet taken out, both in order of acceptance. -/
structure VisitQueue (α : Type) where
  seen : List α
  pending : List α
deriving DecidableEq

namespace VisitQueue

variable {α : Type} [DecidableEq α]

def empty : VisitQueue α := ⟨[], []⟩

def hasSeen (q : VisitQueue α) (item : α) : Bool := q.seen.contains item

/-- Whether the item is accepted, and the queue afterwards. -/
def enqueue (q : VisitQueue α) (item : α) : Bool × VisitQueue α :=
  if q.hasSeen item then (false, q)
  else (true, ⟨q.seen ++ [item], q.pending ++ [item]⟩)

def dequeue (q : VisitQueue α) : Option α × VisitQueue α :=
  match q.pending with
  | [] => (none, q)
  | item :: rest => (some item, ⟨q.seen, rest⟩)

def isEmpty (q : VisitQueue α) : Bool := q.pending.isEmpty

def pendingLength (q : VisitQueue α) : Nat := q.pending.length

def seenLength (q : VisitQueue α) : Nat := q.seen.length

theorem enqueue_accepts_iff (q : VisitQueue α) (item : α) :
    (q.enqueue item).1 = true ↔ item ∉ q.seen := by
  unfold enqueue hasSeen
  split
  · next h => simpa using h
  · next h => simpa using h

theorem enqueue_of_mem {q : VisitQueue α} {item : α} (h : item ∈ q.seen) : (q.enqueue item).2 = q := by
  simp [enqueue, hasSeen, h]

theorem enqueue_of_not_mem {q : VisitQueue α} {item : α} (h : item ∉ q.seen) :
    (q.enqueue item).2 = ⟨q.seen ++ [item], q.pending ++ [item]⟩ := by
  simp [enqueue, hasSeen, h]

theorem mem_seen_enqueue (q : VisitQueue α) (item x : α) :
    x ∈ (q.enqueue item).2.seen ↔ x ∈ q.seen ∨ x = item := by
  by_cases hitem : item ∈ q.seen
  · rw [enqueue_of_mem hitem]
    constructor
    · exact Or.inl
    · rintro (hx | rfl)
      · exact hx
      · exact hitem
  · rw [enqueue_of_not_mem hitem, List.mem_append, List.mem_singleton]

omit [DecidableEq α] in
theorem seen_dequeue (q : VisitQueue α) : (q.dequeue).2.seen = q.seen := by
  unfold dequeue
  split <;> rfl

end VisitQueue

end RequestDocs
