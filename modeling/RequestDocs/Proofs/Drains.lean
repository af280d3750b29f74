import RequestDocs.Proofs.Runs
/-!
# Drains

What is written as models over a whole run. Each record leaves the queue once, and once the queue is
empty, those that have left it are the records nested in the ones announced by documents.
-/

namespace RequestDocs

open Relation

variable {g : TypeGraph}

namespace VisitQueue

/-- The ids that may still leave the queue: those never seen and those pending. -/
def workLeft (g : TypeGraph) (q : VisitQueue TypeId) : Nat := g.unseen q.seen + q.pending.length

theorem workLeft_announce_le (q : VisitQueue TypeId) (ids : List TypeId) (hids : ∀ x ∈ ids, g.Has x) :
    (q.announce ids).workLeft g ≤ q.workLeft g := by
  induction ids generalizing q with
  | nil => exact Nat.le_refl _
  | cons id ids ih =>
    have hrest := ih (q.enqueue id).2 fun x hx => hids x (List.mem_cons_of_mem id hx)
    refine hrest.trans ?_
    unfold enqueue
    split
    · exact Nat.le_refl _
    · next hs =>
      have hseen : id ∉ q.seen := by simpa [hasSeen] using hs
      have hlt : g.unseen (q.seen ++ [id]) < g.unseen q.seen :=
        TypeGraph.unseen_lt (hids id List.mem_cons_self) hseen (List.subset_append_left q.seen [id])
          (by simp)
      simp only [workLeft, List.length_append, List.length_singleton]
      omega

theorem dequeue_none {q : VisitQueue TypeId} (h : q.dequeue.1 = none) :
    q.pending = [] ∧ q.dequeue.2 = q := by
  obtain ⟨seen, _ | ⟨id, rest⟩⟩ := q
  · exact ⟨rfl, rfl⟩
  · cases h

theorem dequeue_some {q q' : VisitQueue TypeId} {id : TypeId} (h : q.dequeue = (some id, q')) :
    q.pending = id :: q'.pending ∧ q'.seen = q.seen := by
  obtain ⟨seen, _ | ⟨first, rest⟩⟩ := q
  · cases h
  · cases h
    exact ⟨rfl, rfl⟩

theorem announce_cons_pending (id : TypeId) (seen rest : List TypeId) (ids : List TypeId) :
    (VisitQueue.mk seen (id :: rest)).announce ids =
      ⟨((VisitQueue.mk seen rest).announce ids).seen,
        id :: ((VisitQueue.mk seen rest).announce ids).pending⟩ := by
  induction ids generalizing seen rest with
  | nil => rfl
  | cons x ids ih =>
    by_cases hx : x ∈ seen
    · simpa [announce, enqueue, hasSeen, hx] using ih seen rest
    · simpa [announce, enqueue, hasSeen, hx] using ih (seen ++ [x]) (rest ++ [x])

end VisitQueue

/-- How far a run has come: what it has seen is done or pending, and leads back to the roots; the
records nested in what is done have been seen. -/
structure Progress (g : TypeGraph) (roots : TypeId → Prop) (done : List TypeId)
    (q : VisitQueue TypeId) : Prop where
  seen : ∀ id, id ∈ q.seen ↔ id ∈ done ∨ id ∈ q.pending
  nodup : (done ++ q.pending).Nodup
  records : ∀ id ∈ q.seen, g.IsRecord id
  rooted : ∀ id, roots id → id ∈ q.seen
  reached : ∀ id ∈ q.seen, ∃ root, roots root ∧ ReflTransGen g.Nests root id
  closed : ∀ id ∈ done, ∀ r, g.Nests id r → r ∈ q.seen

namespace Progress

variable {roots roots' : TypeId → Prop} {done ids : List TypeId} {q : VisitQueue TypeId}

theorem empty : Progress g (fun _ => False) [] .empty where
  seen := by simp [VisitQueue.empty]
  nodup := List.nodup_nil
  records := by simp [VisitQueue.empty]
  rooted _ h := h.elim
  reached := by simp [VisitQueue.empty]
  closed := by simp

theorem announce (h : Progress g roots done q) (hroots : ∀ x, roots x → roots' x)
    (hnew : ∀ x, roots' x → roots x ∨ x ∈ ids) (hrecords : ∀ x ∈ ids, g.IsRecord x)
    (hreached : ∀ x ∈ ids, ∃ root, roots' root ∧ ReflTransGen g.Nests root x) :
    Progress g roots' done (q.announce ids) := by
  obtain ⟨fresh, hpending, hseen, hnodup, hfresh⟩ := q.pending_announce ids
  constructor
  · intro id
    rw [hseen, hpending, List.mem_append, List.mem_append, h.seen, or_assoc]
  · -- Only what has not been seen joins the queue, and all that is done has been.
    rw [hpending, ← List.append_assoc]
    refine List.nodup_append'.2 ⟨h.nodup, hnodup, fun x hx hx' => hfresh x hx' ?_⟩
    exact (h.seen x).2 (List.mem_append.1 hx)
  · intro id hid
    rcases (q.mem_seen_announce ids id).1 hid with hid | hid
    · exact h.records id hid
    · exact hrecords id hid
  · intro id hid
    exact (q.mem_seen_announce ids id).2 ((hnew id hid).imp_left (h.rooted id))
  · intro id hid
    rcases (q.mem_seen_announce ids id).1 hid with hid | hid
    · obtain ⟨root, hroot, hpath⟩ := h.reached id hid
      exact ⟨root, hroots root hroot, hpath⟩
    · exact hreached id hid
  · intro id hid r hr
    exact (q.mem_seen_announce ids r).2 (.inl (h.closed id hid r hr))

/-- A round: the first pending id is done, once the records nested in it are announced. -/
theorem round {id : TypeId} {seen rest : List TypeId}
    (h : Progress g roots done ⟨seen, id :: rest⟩) (hids : ∀ x ∈ ids, ReflTransGen g.Nests id x)
    (hnested : ∀ r, g.Nests id r → r ∈ ids) (hg : g.Closed) :
    Progress g roots (done ++ [id]) ((VisitQueue.mk seen rest).announce ids) := by
  have hmem : id ∈ seen := (h.seen id).2 (.inr List.mem_cons_self)
  obtain ⟨root, hroot, hpath⟩ := h.reached id hmem
  have hnext := h.announce (fun _ h => h) (fun _ h => .inl h)
    (fun x hx => hg.isRecord_of_nests (hids x hx) (h.records id hmem))
    (fun x hx => ⟨root, hroot, hpath.trans (hids x hx)⟩)
  have hseen := (VisitQueue.mk seen (id :: rest)).mem_seen_announce ids
  rw [VisitQueue.announce_cons_pending] at hnext hseen
  constructor
  · intro x
    rw [hnext.seen x, List.mem_append, List.mem_singleton, List.mem_cons, or_assoc]
  · have hnodup := hnext.nodup
    rwa [List.append_cons] at hnodup
  · exact hnext.records
  · exact hnext.rooted
  · exact hnext.reached
  · intro x hx r hr
    rcases List.mem_append.1 hx with hx | hx
    · exact hnext.closed x hx r hr
    · exact (hseen r).2 (.inr (hnested r (List.mem_singleton.1 hx ▸ hr)))

/-- When nothing is pending, what is done are the records nested in the roots at any depth. -/
theorem finished (h : Progress g roots done q) (hq : q.pending = []) (id : TypeId) :
    id ∈ done ↔ ∃ root, roots root ∧ ReflTransGen g.Nests root id := by
  have hdone (x : TypeId) : x ∈ q.seen ↔ x ∈ done := by simpa [hq] using h.seen x
  constructor
  · exact fun hid => h.reached id ((hdone id).2 hid)
  · rintro ⟨root, hroot, hpath⟩
    induction hpath with
    | refl => exact (hdone root).1 (h.rooted root hroot)
    | tail _ hnests ih => exact (hdone _).1 (h.closed _ ih _ hnests)

end Progress

def Model.Named (g : TypeGraph) (names : NameRegistry) (entry : TypeId × Model) : Prop :=
  names.nameOf? entry.1 = some entry.2.name ∧ ∃ nested, g.nestedRecords entry.1 = .ok nested ∧
    List.Forall₂ (fun r name => names.nameOf? r = some name) nested entry.2.dependencies

theorem Model.Named.mono {names names' : NameRegistry} {entry : TypeId × Model}
    (h : Named g names entry) (hkeeps : names.Keeps names') : Named g names' entry := by
  obtain ⟨hname, nested, hnested, hdependencies⟩ := h
  exact ⟨hkeeps.kept _ _ hname, nested, hnested, hdependencies.imp fun _ _ => hkeeps.kept _ _⟩

namespace Run

variable {roots : TypeId → Prop} {done : List TypeId}

structure Drains [Spelling]
    (g : TypeGraph) (maxDepth : Nat) (roots : TypeId → Prop) (done : List TypeId)
    (s : RunState) (models : List (TypeId × Model)) (t : RunState) : Prop where
  progress : Progress g roots (done ++ models.map Prod.fst) t.queue
  empty : t.queue.pending = []
  names : s.registry.Keeps t.registry
  named : ∀ m ∈ models, Model.Named g t.registry m
  sampled : ∀ m ∈ models, Model.Sampled g maxDepth s.registry m

/-- What a round of a drain comes to: one more record is done, with a model, and less is left. -/
structure Rounds [Spelling]
    (g : TypeGraph) (maxDepth : Nat) (roots : TypeId → Prop) (done : List TypeId)
    (s : RunState) (id : TypeId) (m : Model) (t : RunState) : Prop where
  progress : Progress g roots (done ++ [id]) t.queue
  less : t.queue.workLeft g < s.queue.workLeft g
  names : s.registry.Keeps t.registry
  named : Model.Named g t.registry (id, m)
  sampled : Model.Sampled g maxDepth s.registry (id, m)

theorem round_ok [Spelling] (hg : g.Closed) (maxDepth : Nat) {s : RunState} {id : TypeId}
    {queue : VisitQueue TypeId} (h : Progress g roots done s.queue)
    (hnext : s.queue.dequeue = (some id, queue)) :
    Completes (model g maxDepth id) { s with queue } (Rounds g maxDepth roots done s id) := by
  obtain ⟨names, ⟨seen, _ | ⟨first, rest⟩⟩, stats⟩ := s
  · cases hnext
  cases hnext
  have hid : g.IsRecord id := h.records id ((h.seen id).2 (.inr List.mem_cons_self))
  obtain ⟨nested, ids, hnested, hsub, hids, hmodel⟩ := model_ok hg maxDepth hid
  refine (hmodel _).mono fun m t ⟨hmoves, hname, hdependencies, hsampled⟩ => ⟨?_, ?_, ?_, ?_, ?_⟩
  · rw [hmoves.queue]
    refine h.round hids (fun r ⟨nested', hnested', hr⟩ => hsub ?_) hg
    cases hnested.symm.trans hnested'
    exact hr
  · have hle := (VisitQueue.mk seen rest).workLeft_announce_le (g := g) ids fun x hx =>
      (hg.isRecord_of_nests (hids x hx) hid).has
    rw [← show t.queue = (VisitQueue.mk seen rest).announce ids from hmoves.queue] at hle
    simp only [VisitQueue.workLeft, List.length_cons] at hle ⊢
    omega
  · exact hmoves.names
  · exact ⟨hname, nested, hnested, hdependencies⟩
  · exact hsampled

theorem dequeue_eq (s : RunState) :
    dequeue s = .ok s.queue.dequeue.1 { s with queue := s.queue.dequeue.2 } := rfl

private theorem drainQueue_ok [Spelling] (hg : g.Closed) (maxDepth fuel : Nat) (s : RunState)
    (hfuel : s.queue.workLeft g < fuel) (h : Progress g roots done s.queue) :
    Completes (drainQueue g maxDepth fuel) s (Drains g maxDepth roots done s) := by
  induction fuel generalizing done s with
  | zero => omega
  | succ fuel ih =>
    unfold drainQueue
    refine .bind (.of_eq (dequeue_eq s)) ?_
    rintro item t ⟨hitem, rfl⟩
    cases item with
    | none =>
      obtain ⟨hempty, hsame⟩ := VisitQueue.dequeue_none hitem.symm
      rw [hsame]
      exact .pure ⟨by simpa using h, hempty, .refl _, by simp, by simp⟩
    | some id =>
      -- A round takes one unit of work at least, so the bound on the rounds stays out of reach.
      refine .bind (round_ok hg maxDepth h (Prod.ext hitem.symm rfl)) fun m t hround => ?_
      refine .bind (ih t (by have := hround.less; omega) hround.progress) fun models u hrest =>
        .pure ⟨?_, hrest.empty, hround.names.trans hrest.names, ?_, ?_⟩
      · simpa using hrest.progress
      · rintro entry (_ | ⟨_, hentry⟩)
        · exact hround.named.mono hrest.names
        · exact hrest.named entry hentry
      · rintro entry (_ | ⟨_, hentry⟩)
        · exact hround.sampled
        · exact (hrest.sampled entry hentry).mono hround.names

theorem drain_ok [Spelling]
    (hg : g.Closed) (maxDepth : Nat) (s : RunState) (h : Progress g roots done s.queue) :
    Completes (drain g maxDepth) s (Drains g maxDepth roots done s) := by
  refine .get_bind ?_
  have hfuel : s.queue.workLeft g < g.size + s.queue.pending.length + 1 := by
    have hle := g.unseen_le_size s.queue.seen
    simp only [VisitQueue.workLeft]
    omega
  refine .bind (drainQueue_ok hg maxDepth _ s hfuel h) fun models t hdrains => ?_
  refine .bind (M := fun _ u => Drains g maxDepth roots done s models u) (.modify ?_) fun _ _ h => .pure h
  exact ⟨hdrains.progress, hdrains.empty, hdrains.names, hdrains.named, hdrains.sampled⟩

end Run

end RequestDocs
