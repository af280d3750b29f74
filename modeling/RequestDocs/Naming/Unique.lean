/-!
# Unused names

The smallest decimal suffix that keeps a name apart from the names in use.
-/

namespace RequestDocs.Naming

def suffixed (base : String) (i : Nat) : String := base ++ toString i

theorem suffixed_injective (base : String) {i j : Nat} (h : suffixed base i = suffixed base j) :
    i = j := by
  have hd : Nat.toDigits 10 i = Nat.toDigits 10 j := by
    have hl := congrArg String.toList h
    simpa only [suffixed, String.toList_append, List.append_cancel_left_eq, Nat.toString_eq_repr,
      Nat.toList_repr] using hl
  rw [← Nat.ofDigitChars_ten_toDigits (n := i), hd, Nat.ofDigitChars_ten_toDigits]

/-- The suffixes to try. One more than there are used names is enough. -/
def suffixes (used : List String) : List Nat := (List.range (used.length + 1)).map (· + 2)

/-- The smallest suffix from 2 on that gives an unused name. -/
def freeSuffix? (base : String) (used : List String) : Option Nat :=
  (suffixes used).find? fun i => !used.contains (suffixed base i)

theorem isSome_freeSuffix? (base : String) (used : List String) :
    (freeSuffix? base used).isSome := by
  cases h : freeSuffix? base used with
  | some i => rfl
  | none =>
    have htaken : ∀ i ∈ suffixes used, suffixed base i ∈ used := by
      intro i hi
      simpa using List.find?_eq_none.1 h i hi
    have hnodup : ((suffixes used).map (suffixed base)).Nodup := by
      refine List.pairwise_map.2 (List.pairwise_map.2 (List.nodup_range.imp ?_))
      intro i j hij he
      exact hij (Nat.add_right_cancel (suffixed_injective base he))
    have hsub : (suffixes used).map (suffixed base) ⊆ used := by
      intro name hname
      obtain ⟨i, hi, rfl⟩ := List.mem_map.1 hname
      exact htaken i hi
    have hlen := hnodup.length_le_of_subset hsub
    simp only [suffixes, List.length_map, List.length_range] at hlen
    omega

def freeSuffix (base : String) (used : List String) : Nat :=
  (freeSuffix? base used).get (isSome_freeSuffix? base used)

/-- The name itself when it is unused, otherwise with the smallest free suffix. -/
def unique (base : String) (used : List String) : String :=
  if used.contains base then suffixed base (freeSuffix base used) else base

theorem unique_of_not_mem (base : String) (used : List String) (h : base ∉ used) :
    unique base used = base := by
  simp [unique, h]

theorem freeSuffix_mem (base : String) (used : List String) :
    freeSuffix base used ∈ suffixes used :=
  List.mem_of_find?_eq_some (Option.some_get (isSome_freeSuffix? base used)).symm

theorem two_le_freeSuffix (base : String) (used : List String) : 2 ≤ freeSuffix base used := by
  obtain ⟨j, _, hj⟩ := List.mem_map.1 (freeSuffix_mem base used)
  omega

theorem unique_of_mem (base : String) (used : List String) (h : base ∈ used) :
    unique base used = suffixed base (freeSuffix base used) := by
  simp [unique, h]

theorem suffixed_mem_of_lt (base : String) (used : List String) {m : Nat} (hm : 2 ≤ m)
    (hlt : m < freeSuffix base used) : suffixed base m ∈ used := by
  have hfirst : freeSuffix? base used = some (freeSuffix base used) :=
    (Option.some_get (isSome_freeSuffix? base used)).symm
  rw [freeSuffix?, suffixes, List.find?_map, Option.map_eq_some_iff] at hfirst
  obtain ⟨i, hi, heq⟩ := hfirst
  obtain ⟨-, -, hbefore⟩ := List.find?_range_eq_some.1 hi
  have htaken := hbefore (m - 2) (by omega)
  simpa [Nat.sub_add_cancel hm] using htaken

theorem unique_not_mem (base : String) (used : List String) : unique base used ∉ used := by
  unfold unique
  split
  · have h := List.find?_some (Option.some_get (isSome_freeSuffix? base used)).symm
    simpa [freeSuffix] using h
  · next h => simpa using h

/-- The name stands for another beside the names in use: it is the other name where that is unused,
and has the smallest number from 2 on that gives an unused name where it is not. -/
inductive KeptApart (used : List String) (base : String) : String → Prop
  | unchanged (hfree : base ∉ used) : KeptApart used base base
  | numbered (n : Nat) (hused : base ∈ used) (htwo : 2 ≤ n) (hfree : base ++ toString n ∉ used)
      (hsmallest : ∀ m, 2 ≤ m → m < n → base ++ toString m ∈ used) :
      KeptApart used base (base ++ toString n)

theorem KeptApart.not_mem {used : List String} {base name : String} (h : KeptApart used base name) :
    name ∉ used := by
  cases h with
  | unchanged hfree => exact hfree
  | numbered n hused htwo hfree hsmallest => exact hfree

theorem unique_keptApart (base : String) (used : List String) :
    KeptApart used base (unique base used) := by
  have hfree := unique_not_mem base used
  by_cases hused : base ∈ used
  · rw [unique_of_mem base used hused] at hfree ⊢
    have hsmallest (m : Nat) (hm : 2 ≤ m) (hlt : m < freeSuffix base used) :
        base ++ toString m ∈ used := suffixed_mem_of_lt base used hm hlt
    exact .numbered (freeSuffix base used) hused (two_le_freeSuffix base used) hfree hsmallest
  · rw [unique_of_not_mem base used hused]
    exact .unchanged hused

end RequestDocs.Naming
