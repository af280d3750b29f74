import RequestDocs.Naming.Spelling
import RequestDocs.Text.Ascii
/-!
# Pascal case

Words are put together hump by hump: a word starts after an underscore, and where a capital follows
a small letter.
-/

namespace RequestDocs

namespace Naming

open Text

variable {cs : List (List Char)}

/-- The pieces of a chunk that start where a capital follows a small letter. -/
def humps : List Char → List (List Char) :=
  cutBefore fun p c _ => p.isLower && c.isUpper

def joinHumps (text : List Char) : List Char :=
  ((splitOn '_' text).flatMap humps).flatMap fun hump => capitalize (lowercase hump)

theorem joinHumps_joinWith (h : AreChunks cs) : joinHumps (joinWith '_' cs) =
    (cs.flatMap humps).flatMap fun hump => capitalize (lowercase hump) := by
  rw [joinHumps, splitOn_joinWith h.ne_nil]
  intro chunk hchunk hmem
  exact absurd (h.alphanumeric chunk hchunk '_' hmem) (by decide)

private theorem alphanumeric_of_mem_humps (h : AreChunks cs) {hump : List Char}
    (hhump : hump ∈ cs.flatMap humps) : ∀ c ∈ hump, c.isAlphanum := by
  intro c hc
  obtain ⟨chunk, hchunk, hhump⟩ := List.mem_flatMap.1 hhump
  exact h.alphanumeric chunk hchunk c (mem_of_mem_cutBefore hhump hc)

theorem lowercase_lowercase {word : List Char} (h : ∀ c ∈ word, c.isAlphanum) :
    lowercase (lowercase word) = lowercase word := by
  rw [lowercase, lowercase, List.map_map]
  exact List.map_congr_left fun c hc => of_isAlphanum
    (P := fun c => c.toLower.toLower = c.toLower) (by decide +kernel) (h c hc)

theorem lowercase_recased {word : List Char} (h : ∀ c ∈ word, c.isAlphanum) :
    lowercase (capitalize (lowercase word)) = lowercase word := by
  cases word with
  | nil => rfl
  | cons c cs =>
    obtain ⟨hc, hcs⟩ := List.forall_mem_cons.1 h
    have hfirst : c.toLower.toUpper.toLower = c.toLower :=
      of_isAlphanum (P := fun c => c.toLower.toUpper.toLower = c.toLower) (by decide +kernel) hc
    change c.toLower.toUpper.toLower :: lowercase (lowercase cs) = c.toLower :: lowercase cs
    rw [hfirst, lowercase_lowercase hcs]

theorem lowercase_flatMap_recased {words : List (List Char)}
    (h : ∀ word ∈ words, ∀ c ∈ word, c.isAlphanum) :
    lowercase (words.flatMap fun w => capitalize (lowercase w)) = lowercase words.flatten := by
  induction words with
  | nil => rfl
  | cons word words ih =>
    obtain ⟨hword, hwords⟩ := List.forall_mem_cons.1 h
    rw [List.flatMap_cons, List.flatten_cons, lowercase_append, lowercase_append,
      lowercase_recased hword, ih hwords]

theorem not_isLower_head_recased {words : List (List Char)}
    (h : ∀ word ∈ words, word ≠ [] ∧ ∀ c ∈ word, c.isAlphanum) :
    ∀ c ∈ (words.flatMap fun w => capitalize (lowercase w)).head?, ¬c.isLower := by
  cases words with
  | nil => exact nofun
  | cons word words =>
    obtain ⟨hne, halphanum⟩ := h word List.mem_cons_self
    obtain ⟨d, rest, rfl⟩ := List.exists_cons_of_ne_nil hne
    intro c hc
    obtain rfl : d.toLower.toUpper = c := Option.some.inj hc
    exact of_isAlphanum (P := fun d => ¬d.toLower.toUpper.isLower) (by decide +kernel)
      (halphanum d List.mem_cons_self)

end Naming

namespace Spelling

open Naming Text

/-- Characters of ASCII are spelled as they are and others as given, and words are put together hump
by hump. -/
abbrev ofOthers (others : Char → List Char) : Spelling where
  ascii c := if c.toNat < 128 then [c] else others c
  pascal := joinHumps
  letters cs h := by
    rw [joinHumps_joinWith h, lowercase_flatMap_recased fun _ => alphanumeric_of_mem_humps h]
    exact congrArg lowercase (flatten_flatMap_cutBefore _ cs)
  capital cs h := by
    rw [joinHumps_joinWith h]
    refine not_isLower_head_recased fun hump hhump => ⟨?_, alphanumeric_of_mem_humps h hhump⟩
    obtain ⟨chunk, _, hhump⟩ := List.mem_flatMap.1 hhump
    exact ne_nil_of_mem_cutBefore hhump

theorem ascii_ofOthers (others : Char → List Char) {c : Char} (h : c.toNat < 128) :
    (ofOthers others).ascii c = [c] := if_pos h

abbrev plain : Spelling := ofOthers fun _ => []

end Spelling

end RequestDocs
