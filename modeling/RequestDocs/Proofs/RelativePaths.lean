import Mathlib.Data.List.Basic
import RequestDocs.TreePath
/-!
# Relative paths

The way from one position to another leaves the segments behind the longest common prefix and enters
those of the target; no other way takes as few steps. Where the token for a step up is no segment, only
equal positions have the same way back and forth.
-/

namespace RequestDocs.TreePath

theorem commonLength_comm (as bs : List String) : commonLength as bs = commonLength bs as := by
  fun_induction commonLength as bs with
  | case1 a as bs ih => simp [commonLength, ih]
  | case2 a as b bs h => simp [commonLength, Ne.symm h]
  | case3 as bs h =>
    cases as with
    | nil => cases bs <;> rfl
    | cons a as =>
      cases bs with
      | nil => rfl
      | cons b bs => exact absurd rfl (h a as b bs rfl)

theorem le_commonLength {as bs : List String} {n : Nat} (has : n ≤ as.length) (hbs : n ≤ bs.length)
    (h : as.take n = bs.take n) : n ≤ commonLength as bs := by
  induction n generalizing as bs with
  | zero => exact Nat.zero_le _
  | succ n ih =>
    cases as with
    | nil => cases has
    | cons a as =>
      cases bs with
      | nil => cases hbs
      | cons b bs =>
        rw [List.take_succ_cons, List.take_succ_cons, List.cons_eq_cons] at h
        obtain ⟨rfl, htail⟩ := h
        have hrest := ih (Nat.le_of_succ_le_succ has) (Nat.le_of_succ_le_succ hbs) htail
        simpa [commonLength] using hrest

theorem commonLength_self (as : List String) : commonLength as as = as.length :=
  Nat.le_antisymm (commonLength_le as as).1 (le_commonLength (Nat.le_refl _) (Nat.le_refl _) rfl)

variable {p target : TreePath} {levels : Nat} {segments : List String}

/-- The position so many levels up; the root is above all. -/
def ancestor (p : TreePath) (levels : Nat) : TreePath :=
  ⟨p.segments.take (p.segments.length - levels)⟩

/-- So many levels up and then down the segments is a way from the position to the target. -/
def Leads (p target : TreePath) (levels : Nat) (segments : List String) : Prop :=
  (p.ancestor levels).enter segments = target

/-- A way to the target that takes no more steps than any other. -/
structure Shortest (p target : TreePath) (levels : Nat) (segments : List String) : Prop where
  leads : p.Leads target levels segments
  least : ∀ levels' segments', p.Leads target levels' segments' →
    levels + segments.length ≤ levels' + segments'.length

def climb (p target : TreePath) : Nat :=
  p.segments.length - commonLength p.segments target.segments

def descent (p target : TreePath) : List String :=
  target.segments.drop (commonLength p.segments target.segments)

theorem relative_eq (p target : TreePath) (up : String) :
    p.relative target up = List.replicate (p.climb target) up ++ p.descent target := rfl

theorem take_append_descent (p target : TreePath) :
    p.segments.take (commonLength p.segments target.segments) ++ p.descent target =
      target.segments := by
  rw [take_commonLength, descent, List.take_append_drop]

theorem leads_climb_descent (p target : TreePath) :
    p.Leads target (p.climb target) (p.descent target) := by
  have hle := (commonLength_le p.segments target.segments).1
  rw [Leads, ancestor, enter, climb, Nat.sub_sub_self hle, take_append_descent]

theorem Leads.kept (h : p.Leads target levels segments) :
    p.segments.length - levels ≤ commonLength p.segments target.segments ∧
      segments = target.segments.drop (p.segments.length - levels) := by
  have htarget : p.segments.take (p.segments.length - levels) ++ segments = target.segments :=
    congrArg TreePath.segments h
  have hlength : (p.segments.take (p.segments.length - levels)).length = p.segments.length - levels :=
    List.length_take_of_le (Nat.sub_le _ _)
  constructor
  · apply le_commonLength (Nat.sub_le _ _)
    · rw [← htarget, List.length_append, hlength]
      exact Nat.le_add_right _ _
    · rw [← htarget, List.take_append_of_le_length (Nat.le_of_eq hlength.symm), List.take_take,
        Nat.min_self]
  · rw [← htarget, List.drop_left' hlength]

theorem Leads.length_eq (h : p.Leads target levels segments) :
    segments.length = target.segments.length - (p.segments.length - levels) := by
  obtain ⟨-, hsegments⟩ := h.kept
  simpa using congrArg List.length hsegments

theorem shortest_climb_descent (p target : TreePath) :
    p.Shortest target (p.climb target) (p.descent target) := by
  refine ⟨leads_climb_descent p target, fun levels' segments' h => ?_⟩
  obtain ⟨hkept, -⟩ := h.kept
  have hlength := h.length_eq
  have hle := commonLength_le p.segments target.segments
  rw [climb, descent, List.length_drop]
  omega

theorem Shortest.unique (h : p.Shortest target levels segments) :
    levels = p.climb target ∧ segments = p.descent target := by
  obtain ⟨hkept, hsegments⟩ := h.leads.kept
  have hlength := h.leads.length_eq
  have hle := commonLength_le p.segments target.segments
  have hleast := h.least _ _ (leads_climb_descent p target)
  rw [climb, descent, List.length_drop] at hleast
  have hsame : p.segments.length - levels = commonLength p.segments target.segments := by omega
  constructor
  · rw [climb]
    omega
  · rw [hsegments, hsame, descent]

theorem relative_eq_nil_iff (p target : TreePath) (up : String) :
    p.relative target up = [] ↔ p = target := by
  rw [relative_eq, List.append_eq_nil_iff, List.replicate_eq_nil_iff]
  constructor
  · rintro ⟨hclimb, hdescent⟩
    have hleads := leads_climb_descent p target
    rw [hclimb, hdescent, Leads, ancestor, enter, Nat.sub_zero, List.take_length,
      List.append_nil] at hleads
    exact hleads
  · rintro rfl
    rw [climb, descent, commonLength_self, Nat.sub_self, List.drop_length]
    exact ⟨rfl, rfl⟩

theorem count_relative {up : String} (htarget : up ∉ target.segments) :
    (p.relative target up).count up = p.climb target := by
  have hdescent : up ∉ p.descent target := fun hmem => htarget (List.mem_of_mem_drop hmem)
  rw [relative_eq, List.count_append, List.count_replicate_self, List.count_eq_zero_of_not_mem hdescent,
    Nat.add_zero]

theorem climb_add_length (p target : TreePath) :
    p.climb target + target.segments.length = target.climb p + p.segments.length := by
  have hle := commonLength_le p.segments target.segments
  rw [climb, climb, commonLength_comm target.segments]
  omega

theorem eq_of_relative_eq {up : String} (hp : up ∉ p.segments) (htarget : up ∉ target.segments)
    (h : p.relative target up = target.relative p up) : p = target := by
  have hclimb : p.climb target = target.climb p := by
    rw [← count_relative htarget, ← count_relative hp, h]
  rw [relative_eq, relative_eq, hclimb, List.append_cancel_left_eq] at h
  have hback := take_append_descent target p
  rw [← h, commonLength_comm, ← take_commonLength] at hback
  have hsegments : p.segments = target.segments := hback.symm.trans (take_append_descent p target)
  cases p
  cases target
  exact congrArg TreePath.mk hsegments

/-- The way is so many tokens and then the segments to enter, and these are the one shortest way. It is
empty between equal positions only. Back and forth, it leaves different numbers of levels if the depths
differ; if the token is none of the segments, only equal positions have the same way back and forth. -/
theorem relative_shortest (p target : TreePath) (up : String) :
    p.relative target up = List.replicate (p.climb target) up ++ p.descent target ∧
    (∀ levels segments, p.Shortest target levels segments ↔
      levels = p.climb target ∧ segments = p.descent target) ∧
    (p.relative target up = [] ↔ p = target) ∧
    (p.segments.length ≠ target.segments.length → p.climb target ≠ target.climb p) ∧
    (up ∉ p.segments → up ∉ target.segments →
      p.relative target up = target.relative p up → p = target) := by
  refine ⟨relative_eq p target up, fun levels segments => ⟨Shortest.unique, ?_⟩,
    relative_eq_nil_iff p target up, fun hdepth hclimb => hdepth ?_, eq_of_relative_eq⟩
  · rintro ⟨rfl, rfl⟩
    exact shortest_climb_descent p target
  · have hlengths := climb_add_length p target
    omega

example : (⟨["pets"]⟩ : TreePath).relative ⟨["..", "pets"]⟩ ".." =
    (⟨["..", "pets"]⟩ : TreePath).relative ⟨["pets"]⟩ ".." := by decide

end RequestDocs.TreePath
