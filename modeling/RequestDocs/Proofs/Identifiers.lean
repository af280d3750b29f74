import Mathlib.Data.List.Basic
import RequestDocs.Naming.Operation
import RequestDocs.Naming.PascalCase
import RequestDocs.Naming.Unique
/-!
# Characters of names

However texts are spelled, the names made from them have letters and digits of ASCII only, and the
name of a type starts with a capital.
-/

namespace RequestDocs

def IsIdentifier (s : String) : Prop := ∀ c ∈ s.toList, c.isAlphanum

instance (s : String) : Decidable (IsIdentifier s) := List.decidableBAll _ s.toList

theorem IsIdentifier.append {s t : String} (hs : IsIdentifier s) (ht : IsIdentifier t) :
    IsIdentifier (s ++ t) := by
  intro c hc
  rw [String.toList_append] at hc
  exact (List.mem_append.1 hc).elim (hs c) (ht c)

/-- A name fit for identifiers and files: letters and digits of ASCII, the first of them a
capital. -/
structure IsTypeName (s : String) : Prop where
  capital : ∃ c ∈ s.toList.head?, c.isUpper
  isIdentifier : IsIdentifier s

theorem IsTypeName.append {s t : String} (hs : IsTypeName s) (ht : IsIdentifier t) :
    IsTypeName (s ++ t) := by
  obtain ⟨c, hc, hupper⟩ := hs.capital
  refine ⟨⟨c, ?_, hupper⟩, hs.isIdentifier.append ht⟩
  rw [String.toList_append, List.head?_append, Option.mem_def.1 hc]
  rfl

theorem IsTypeName.ne_empty {s : String} (h : IsTypeName s) : s ≠ "" := by
  rintro rfl
  obtain ⟨c, hc, -⟩ := h.capital
  cases hc

namespace Text

theorem mem_joinWith {sep : Char} {parts : List (List Char)} {c : Char}
    (h : c ∈ joinWith sep parts) : c = sep ∨ ∃ part ∈ parts, c ∈ part := by
  fun_induction joinWith sep parts with
  | case1 => cases h
  | case2 part => exact .inr ⟨part, List.mem_singleton_self part, h⟩
  | case3 part parts _ ih =>
    rcases List.mem_append.1 h with h | h
    · exact .inr ⟨part, List.mem_cons_self, h⟩
    · rcases List.mem_cons.1 h with rfl | h
      · exact .inl rfl
      · rcases ih h with hsep | ⟨other, hother, hc⟩
        · exact .inl hsep
        · exact .inr ⟨other, List.mem_cons_of_mem part hother, hc⟩

def Caseless (p : Char → Bool) : Prop := p ∘ Char.toLower = p

theorem caseless_of_ascii {p : Char → Bool}
    (h : ∀ n < 128, p (Char.ofNat n).toLower = p (Char.ofNat n)) : Caseless p := by
  funext c
  by_cases hc : c.toNat < 128
  · exact of_ascii (P := fun c => p c.toLower = p c) h hc
  · have hlower : c.toLower = c := by
      have hupper : ¬(c.val ≥ 'A'.val ∧ c.val ≤ 'Z'.val) := by
        intro hrange
        have hle : c.toNat ≤ 90 := hrange.2
        omega
      exact dif_neg hupper
    exact congrArg p hlower

theorem isAlphanum_toUpper {c : Char} (h : c.isAlphanum) : c.toUpper.isAlphanum :=
  of_isAlphanum (P := fun c => c.toUpper.isAlphanum) (by decide +kernel) h

theorem isAlphanum_toLower {c : Char} (h : c.isAlphanum) : c.toLower.isAlphanum :=
  of_isAlphanum (P := fun c => c.toLower.isAlphanum) (by decide +kernel) h

end Text

namespace Naming

open Text

private abbrev Alphanumeric (cs : List Char) : Prop := ∀ c ∈ cs, c.isAlphanum

theorem flatMap_ascii [Spelling] (hascii : ∀ c, c.toNat < 128 → Spelling.ascii c = [c])
    {text : List Char} (h : ∀ c ∈ text, c.toNat < 128) : text.flatMap Spelling.ascii = text := by
  rw [List.flatMap_congr fun c hc => hascii c (h c hc), List.flatMap_singleton']

theorem areChunks_chunks [Spelling] {s : String} (h : chunks s ≠ []) : AreChunks (chunks s) where
  ne_nil := h
  nonempty chunk hchunk := by simpa using (List.mem_filter.1 hchunk).2
  alphanumeric chunk hchunk c hc := by
    have hsplit := of_mem_splitWhere (List.mem_filter.1 hchunk).1 hc
    simpa using hsplit

theorem alphanumeric_of_mem_chunks [Spelling] {s : String} {chunk : List Char}
    (h : chunk ∈ chunks s) : ∀ c ∈ chunk, c.isAlphanum :=
  (areChunks_chunks (List.ne_nil_of_mem h)).alphanumeric chunk h

theorem alphanumeric_of_mem_words [Spelling] {s : String} {word : List Char} (h : word ∈ words s) :
    word ≠ [] ∧ ∀ c ∈ word, c.isAlphanum := by
  obtain ⟨chunk, hchunk, hword⟩ := List.mem_flatMap.1 h
  exact ⟨ne_nil_of_mem_cutBefore hword, fun c hc =>
    alphanumeric_of_mem_chunks hchunk c (mem_of_mem_cutBefore hword hc)⟩

theorem alphanumeric_capitalize {cs : List Char} (h : ∀ c ∈ cs, c.isAlphanum) :
    ∀ c ∈ capitalize cs, c.isAlphanum := by
  cases cs with
  | nil => exact h
  | cons c cs =>
    obtain ⟨hc, hcs⟩ := List.forall_mem_cons.1 h
    exact List.forall_mem_cons.2 ⟨isAlphanum_toUpper hc, hcs⟩

theorem alphanumeric_lowercase {cs : List Char} (h : ∀ c ∈ cs, c.isAlphanum) :
    ∀ c ∈ lowercase cs, c.isAlphanum := by
  intro c hc
  obtain ⟨d, hd, rfl⟩ := List.mem_map.1 hc
  exact isAlphanum_toLower (h d hd)

private theorem alphanumeric_recased {words : List (List Char)} (h : ∀ w ∈ words, Alphanumeric w) :
    Alphanumeric (words.flatMap fun w => capitalize (lowercase w)) := by
  intro c hc
  obtain ⟨w, hw, hc⟩ := List.mem_flatMap.1 hc
  exact alphanumeric_capitalize (alphanumeric_lowercase (h w hw)) c hc

theorem alphanumeric_camelCase {words : List (List Char)} (h : ∀ w ∈ words, ∀ c ∈ w, c.isAlphanum) :
    ∀ c ∈ camelCase words, c.isAlphanum := by
  cases words with
  | nil => exact nofun
  | cons w ws =>
    obtain ⟨hw, hws⟩ := List.forall_mem_cons.1 h
    exact List.forall_mem_append.2 ⟨alphanumeric_lowercase hw, alphanumeric_recased hws⟩

/-- A name that may only lack its first letter. -/
structure NearlyName (name : List Char) : Prop where
  ne_nil : name ≠ []
  alphanumeric : ∀ c ∈ name, c.isAlphanum
  notSmall : ∀ c ∈ name.head?, ¬c.isLower

theorem NearlyName.isTypeName {name : List Char} (h : NearlyName name) :
    IsTypeName (String.ofList (if startsWithDigit name then 'T' :: name else name)) := by
  obtain ⟨c, rest, rfl⟩ := List.exists_cons_of_ne_nil h.ne_nil
  split
  · refine ⟨⟨'T', by simp, by decide⟩, fun d hd => ?_⟩
    rw [String.toList_ofList] at hd
    rcases List.mem_cons.1 hd with rfl | hd
    · decide
    · exact h.alphanumeric d hd
  · next hletter =>
    have hkind : (c.isUpper || c.isLower || c.isDigit) = true := h.alphanumeric c List.mem_cons_self
    have hsmall : ¬c.isLower := h.notSmall c rfl
    have hdigit : ¬c.isDigit := hletter
    refine ⟨⟨c, by simp, by simpa [hsmall, hdigit] using hkind⟩, fun d hd => ?_⟩
    rw [String.toList_ofList] at hd
    exact h.alphanumeric d hd

private theorem nearlyName_pascal [Spelling] {cs : List (List Char)} (h : AreChunks cs) :
    NearlyName (Spelling.pascal (joinWith '_' cs)) := by
  have hletters := Spelling.letters cs h
  refine ⟨fun hnil => ?_, fun c hc => ?_, Spelling.capital cs h⟩
  · obtain ⟨chunk, rest, rfl⟩ := List.exists_cons_of_ne_nil h.ne_nil
    rw [hnil] at hletters
    have hflat : (chunk :: rest).flatten = [] := List.map_eq_nil_iff.1 hletters.symm
    have hempty : chunk = [] := List.flatten_eq_nil_iff.1 hflat chunk List.mem_cons_self
    exact h.nonempty chunk List.mem_cons_self hempty
  · have hlower : c.toLower ∈ lowercase cs.flatten := hletters ▸ List.mem_map_of_mem hc
    obtain ⟨d, hd, heq⟩ := List.mem_map.1 hlower
    obtain ⟨chunk, hchunk, hd⟩ := List.mem_flatten.1 hd
    have hcase : Caseless Char.isAlphanum := caseless_of_ascii (by decide +kernel)
    rw [← congrFun hcase c, Function.comp_apply, ← heq]
    exact isAlphanum_toLower (h.alphanumeric chunk hchunk d hd)

theorem nearlyName_pascalCase [Spelling] {cs : List (List Char)} (h : AreChunks cs) :
    NearlyName (pascalCase cs) := by
  unfold pascalCase
  split
  · next chunk =>
    split
    · have halphanum := h.alphanumeric chunk List.mem_cons_self
      refine ⟨?_, alphanumeric_capitalize halphanum, fun c hc => ?_⟩
      all_goals
        obtain ⟨d, rest, rfl⟩ := List.exists_cons_of_ne_nil (h.nonempty chunk List.mem_cons_self)
      · exact List.cons_ne_nil _ _
      · obtain rfl : d.toUpper = c := Option.some.inj hc
        exact of_isAlphanum (P := fun d => ¬d.toUpper.isLower) (by decide +kernel)
          (halphanum d List.mem_cons_self)
    · exact nearlyName_pascal h
  · exact nearlyName_pascal h

theorem isTypeName_typeName [Spelling] (s : String) : IsTypeName (typeName s) := by
  unfold typeName
  split
  · exact ⟨⟨'U', by decide, by decide⟩, by decide⟩
  · next hsome => exact (nearlyName_pascalCase (areChunks_chunks hsome)).isTypeName

theorem isIdentifier_toString (n : Nat) : IsIdentifier (toString n) := by
  intro c hc
  rw [Nat.toString_eq_repr, Nat.toList_repr] at hc
  have hdigit := Nat.isDigit_of_mem_toDigits (by decide) (by decide) hc
  simp [Char.isAlphanum, hdigit]

theorem exists_unique_eq (base : String) (used : List String) :
    ∃ suffix, IsIdentifier suffix ∧ unique base used = base ++ suffix := by
  unfold unique
  split
  · exact ⟨toString (freeSuffix base used), isIdentifier_toString _, rfl⟩
  · exact ⟨"", by simp [IsIdentifier], by simp⟩

theorem isIdentifier_unique {base : String} (h : IsIdentifier base) (used : List String) :
    IsIdentifier (unique base used) := by
  obtain ⟨suffix, hsuffix, heq⟩ := exists_unique_eq base used
  rw [heq]
  exact h.append hsuffix

theorem mem_sanitize [Spelling] {s : String} {c : Char} (h : c ∈ (sanitize s).toList) :
    c.isAlphanum ∨ c = '_' := by
  rw [sanitize, String.toList_ofList] at h
  rcases mem_joinWith h with hsep | ⟨chunk, hchunk, hc⟩
  · exact .inr hsep
  · exact .inl (alphanumeric_of_mem_chunks hchunk c hc)

theorem isIdentifier_fieldName [Spelling] {s : String} (h : words s ≠ []) :
    IsIdentifier (fieldName s) := by
  unfold fieldName
  split
  · next hnil => exact absurd hnil h
  · intro c hc
    rw [String.toList_ofList] at hc
    exact alphanumeric_camelCase (fun word hword => (alphanumeric_of_mem_words hword).2) c hc

end Naming

end RequestDocs
