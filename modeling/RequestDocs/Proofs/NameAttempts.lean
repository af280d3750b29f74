import Mathlib.Order.Interval.Finset.Nat
import RequestDocs.Naming.Unique
/-!
# Attempts at a name

A name in use is tried with one number after the other, and no bound is set. The attempts are no
more than one for each name in use and one that succeeds, and what they end in is the unused name.
-/

namespace RequestDocs.Naming

variable {used : List String} {base name : String}

/-- The numbers from `n` on are tried until one gives an unused name. -/
inductive Tries (used : List String) (base : String) : (n attempts : Nat) → String → Prop
  | free {n : Nat} (hfree : suffixed base n ∉ used) : Tries used base n 1 (suffixed base n)
  | taken {n attempts : Nat} {name : String} (hused : suffixed base n ∈ used)
      (hrest : Tries used base (n + 1) attempts name) : Tries used base n (attempts + 1) name

/-- The name itself is tried first, and then with the numbers from 2 on. -/
inductive Settles (used : List String) (base : String) : (attempts : Nat) → String → Prop
  | unchanged (hfree : base ∉ used) : Settles used base 1 base
  | numbered {attempts : Nat} {name : String} (hused : base ∈ used)
      (hrest : Tries used base 2 attempts name) : Settles used base (attempts + 1) name

theorem tries_iff {n attempts : Nat} : Tries used base n attempts name ↔
    0 < attempts ∧ name = suffixed base (n + (attempts - 1)) ∧ name ∉ used ∧
      ∀ m, n ≤ m → m < n + (attempts - 1) → suffixed base m ∈ used := by
  constructor
  · intro h
    induction h with
    | free hfree => exact ⟨Nat.one_pos, rfl, hfree, fun m hle hlt => by omega⟩
    | @taken n attempts name hused _ ih =>
      obtain ⟨hpos, hname, hfree, htaken⟩ := ih
      have hlast : n + 1 + (attempts - 1) = n + attempts := by omega
      rw [hlast] at hname htaken
      refine ⟨Nat.succ_pos attempts, hname, hfree, fun m hle hlt => ?_⟩
      rcases Nat.eq_or_lt_of_le hle with rfl | hlater
      · exact hused
      · exact htaken m hlater hlt
  · rintro ⟨hpos, hname, hfree, htaken⟩
    induction attempts generalizing n with
    | zero => exact absurd hpos (Nat.lt_irrefl 0)
    | succ attempts ih =>
      rw [Nat.add_sub_cancel] at hname htaken
      cases attempts with
      | zero =>
        subst hname
        exact .free hfree
      | succ attempts =>
        have hlast : n + 1 + (attempts + 1 - 1) = n + (attempts + 1) := by omega
        refine .taken (htaken n (Nat.le_refl n) (by omega)) (ih (Nat.succ_pos attempts) ?_ ?_)
        · rw [hlast, hname]
        · intro m hle hlt
          exact htaken m (by omega) (by omega)

theorem ne_suffixed (base : String) (n : Nat) : base ≠ suffixed base n := by
  intro h
  have hlist := congrArg String.toList h
  rw [suffixed, String.toList_append, List.self_eq_append_right, Nat.toString_eq_repr,
    Nat.toList_repr] at hlist
  exact Nat.toDigits_ne_nil hlist

/-- The names that are tried in vain are different names in use. -/
theorem le_card_of_taken {n : Nat} (hused : base ∈ used)
    (htaken : ∀ m, 2 ≤ m → m < n → suffixed base m ∈ used) : n ≤ used.toFinset.card + 1 := by
  let tried := insert base ((Finset.Ico 2 n).image (suffixed base))
  have hbase : base ∉ (Finset.Ico 2 n).image (suffixed base) := by
    intro hmem
    obtain ⟨m, _, heq⟩ := Finset.mem_image.1 hmem
    exact ne_suffixed base m heq.symm
  have hinjective : Set.InjOn (suffixed base) (Finset.Ico 2 n) :=
    fun _ _ _ _ heq => suffixed_injective base heq
  have hcard : tried.card = n - 2 + 1 := by
    rw [Finset.card_insert_of_notMem hbase, Finset.card_image_of_injOn hinjective, Nat.card_Ico]
  have hsubset : tried ⊆ used.toFinset := by
    intro name hname
    rw [List.mem_toFinset]
    rcases Finset.mem_insert.1 hname with rfl | hname
    · exact hused
    · obtain ⟨m, hm, rfl⟩ := Finset.mem_image.1 hname
      obtain ⟨hle, hlt⟩ := Finset.mem_Ico.1 hm
      exact htaken m hle hlt
  have hle := Finset.card_le_card hsubset
  omega

theorem Settles.keptApart {attempts : Nat} (h : Settles used base attempts name) :
    KeptApart used base name := by
  cases h with
  | unchanged hfree => exact .unchanged hfree
  | numbered hused hrest =>
    obtain ⟨-, rfl, hfree, htaken⟩ := tries_iff.1 hrest
    exact .numbered _ hused (Nat.le_add_right 2 _) hfree htaken

theorem KeptApart.settles (h : KeptApart used base name) :
    ∃ attempts ≤ used.toFinset.card + 1, Settles used base attempts name := by
  cases h with
  | unchanged hfree => exact ⟨1, Nat.le_add_left 1 _, .unchanged hfree⟩
  | numbered n hused htwo hfree hsmallest =>
    obtain ⟨k, rfl⟩ := Nat.exists_eq_add_of_le htwo
    have hle : 2 + k ≤ used.toFinset.card + 1 := le_card_of_taken hused hsmallest
    refine ⟨k + 1 + 1, by omega, .numbered hused (tries_iff.2 ⟨Nat.succ_pos k, rfl, hfree, ?_⟩)⟩
    exact hsmallest

theorem KeptApart.unique {name' : String} (h : KeptApart used base name)
    (h' : KeptApart used base name') : name = name' := by
  cases h with
  | unchanged hfree =>
    cases h' with
    | unchanged => rfl
    | numbered _ hused => exact absurd hused hfree
  | numbered n hused htwo hfree hsmallest =>
    cases h' with
    | unchanged hfree' => exact absurd hused hfree'
    | numbered n' _ htwo' hfree' hsmallest' =>
      rcases Nat.lt_trichotomy n n' with hlt | rfl | hlt
      · exact absurd (hsmallest' n htwo hlt) hfree
      · rfl
      · exact absurd (hsmallest n' htwo' hlt) hfree'

/-- Whatever names are in use, attempts to keep a name apart from them come to an end, after at most
one more than there are different names in use. What they end in is not in use, and it is one name:
the name itself if that is unused, and otherwise the name with the smallest number from 2 on that
gives an unused one. -/
theorem unique_settles (base : String) (used : List String) :
    (∃ attempts ≤ used.toFinset.card + 1, Settles used base attempts (unique base used)) ∧
    (∀ name, (∃ attempts, Settles used base attempts name) ↔ name = unique base used) ∧
    unique base used ∉ used ∧
    ∀ name, KeptApart used base name ↔ name = unique base used := by
  have hkept := unique_keptApart base used
  have honly (name : String) (h : KeptApart used base name) : name = unique base used :=
    h.unique hkept
  have hsettles := hkept.settles
  refine ⟨hsettles, fun name => ⟨?_, ?_⟩, hkept.not_mem, fun name => ⟨honly name, ?_⟩⟩
  · rintro ⟨attempts, h⟩
    exact honly name h.keptApart
  · rintro rfl
    obtain ⟨attempts, _, h⟩ := hsettles
    exact ⟨attempts, h⟩
  · rintro rfl
    exact hkept

example : unique "Pet" ["Pet2", "Pet"] = "Pet3" := by decide +kernel

end RequestDocs.Naming
