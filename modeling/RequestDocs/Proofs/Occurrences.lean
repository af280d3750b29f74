import Mathlib.Data.List.Dedup
import Mathlib.Data.List.Induction
/-!
# Order of occurrence

The members of a list, each once, in the order in which they first occur, and in the order in which
they last occur.
-/

namespace RequestDocs

variable {α : Type} [DecidableEq α] {xs ys : List α}

/-- The members of a list, each once, in the order of their first occurrences. -/
structure FirstOccurrences (xs ys : List α) : Prop where
  mem_iff : ∀ x, x ∈ ys ↔ x ∈ xs
  ordered : ys.Pairwise fun x y => xs.idxOf x < xs.idxOf y

def LastOccurrences (xs ys : List α) : Prop := FirstOccurrences xs.reverse ys.reverse

theorem FirstOccurrences.nodup (h : FirstOccurrences xs ys) : ys.Nodup := by
  apply h.ordered.imp
  intro x y hlt heq
  rw [heq] at hlt
  exact Nat.lt_irrefl _ hlt

theorem FirstOccurrences.ordered_append (h : FirstOccurrences xs ys) (zs : List α) :
    ys.Pairwise fun x y => (xs ++ zs).idxOf x < (xs ++ zs).idxOf y := by
  apply h.ordered.imp_of_mem
  intro x y hx hy hlt
  rw [List.idxOf_append_of_mem ((h.mem_iff x).1 hx), List.idxOf_append_of_mem ((h.mem_iff y).1 hy)]
  exact hlt

theorem FirstOccurrences.concat_of_mem {x : α} (h : FirstOccurrences xs ys) (hx : x ∈ xs) :
    FirstOccurrences (xs ++ [x]) ys := by
  constructor
  · intro y
    rw [h.mem_iff, List.mem_append, List.mem_singleton]
    constructor
    · exact Or.inl
    · rintro (hy | rfl)
      · exact hy
      · exact hx
  · exact h.ordered_append [x]

theorem FirstOccurrences.concat_of_not_mem {x : α} (h : FirstOccurrences xs ys) (hx : x ∉ xs) :
    FirstOccurrences (xs ++ [x]) (ys ++ [x]) := by
  constructor
  · intro y
    rw [List.mem_append, List.mem_append, h.mem_iff]
  · rw [List.pairwise_append]
    refine ⟨h.ordered_append [x], List.pairwise_singleton _ x, ?_⟩
    intro y hy z hz
    have hmem : y ∈ xs := (h.mem_iff y).1 hy
    have hlt : xs.idxOf y < xs.length := List.idxOf_lt_length_iff.2 hmem
    rw [List.mem_singleton.1 hz, List.idxOf_append_of_mem hmem, List.idxOf_append_of_notMem hx]
    omega

theorem eraseDups_append_of_subset (h : ys ⊆ xs) : (xs ++ ys).eraseDups = xs.eraseDups := by
  have hnone : ys.removeAll xs = [] := by
    apply List.filter_eq_nil_iff.2
    intro y hy
    simp [h hy]
  simp [List.eraseDups_append, hnone]

theorem eraseDups_concat {x : α} (h : x ∉ xs) : (xs ++ [x]).eraseDups = xs.eraseDups ++ [x] := by
  have hsingle : [x].eraseDups = [x] := by simp [List.eraseDups_cons]
  simp [List.eraseDups_append, List.removeAll, h, hsingle]

theorem firstOccurrences_eraseDups (xs : List α) : FirstOccurrences xs xs.eraseDups := by
  induction xs using List.reverseRecOn with
  | nil => exact ⟨by simp, by simp⟩
  | append_singleton xs x ih =>
    by_cases hx : x ∈ xs
    · rw [eraseDups_append_of_subset (by simpa using hx)]
      exact ih.concat_of_mem hx
    · rw [eraseDups_concat hx]
      exact ih.concat_of_not_mem hx

theorem nodup_eraseDups (xs : List α) : xs.eraseDups.Nodup := (firstOccurrences_eraseDups xs).nodup

theorem lastOccurrences_dedup (xs : List α) : LastOccurrences xs xs.dedup := by
  unfold LastOccurrences
  induction xs with
  | nil => exact ⟨by simp, by simp⟩
  | cons x xs ih =>
    rw [List.reverse_cons]
    by_cases hx : x ∈ xs
    · rw [List.dedup_cons_of_mem hx]
      exact ih.concat_of_mem (List.mem_reverse.2 hx)
    · rw [List.dedup_cons_of_notMem hx, List.reverse_cons]
      exact ih.concat_of_not_mem (mt List.mem_reverse.1 hx)

theorem eraseDups_filter (p : α → Bool) (xs : List α) :
    (xs.filter p).eraseDups = xs.eraseDups.filter p := by
  induction xs using List.reverseRecOn with
  | nil => rfl
  | append_singleton xs x ih =>
    have hsame : (xs ++ [x]).filter p = xs.filter p ++ if p x then [x] else [] := by
      simp [List.filter_cons]
    by_cases hx : x ∈ xs
    · have hsub : (if p x then [x] else []) ⊆ xs.filter p := by
        intro y hy
        split at hy
        · next hp =>
          rw [List.mem_singleton.1 hy]
          exact List.mem_filter.2 ⟨hx, hp⟩
        · cases hy
      rw [hsame, eraseDups_append_of_subset hsub, eraseDups_append_of_subset (by simpa using hx), ih]
    · have hnot : x ∉ xs.filter p := fun h => hx (List.mem_of_mem_filter h)
      rw [hsame, eraseDups_concat hx, List.filter_append, ← ih]
      by_cases hp : p x
      · simp [hp, eraseDups_concat hnot]
      · simp [hp]

theorem eraseDups_append_congr {xs' ys' : List α} (hx : xs.eraseDups = xs'.eraseDups)
    (hy : ys.eraseDups = ys'.eraseDups) : (xs ++ ys).eraseDups = (xs' ++ ys').eraseDups := by
  have hmem (x : α) : x ∈ xs ↔ x ∈ xs' := by
    rw [← List.mem_eraseDups, hx, List.mem_eraseDups]
  have hrest : (ys.removeAll xs).eraseDups = (ys'.removeAll xs').eraseDups := by
    unfold List.removeAll
    rw [eraseDups_filter, eraseDups_filter, hy]
    apply List.filter_congr
    intro y _
    simp [hmem y]
  rw [List.eraseDups_append, List.eraseDups_append, hx, hrest]

end RequestDocs
