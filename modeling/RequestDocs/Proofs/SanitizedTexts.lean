import Mathlib.Data.List.Chain
import Mathlib.Data.List.DropRight
import RequestDocs.Text.Blank
import RequestDocs.Proofs.TypeNames
/-!
# Sanitized texts

A sanitized text has words of letters and digits with single underscores between them. Sanitizing
gives such a text however characters outside ASCII are spelled, and leaves a text as it is exactly
when it is one. It comes to the same as replacing runs of foreign characters by underscores, then
runs of underscores by one, and taking away those at the ends.
-/

namespace RequestDocs

namespace Text

variable {p q : Char → Bool} {sep : Char} {cs : List Char}

/-- No separator at either end, and no two in a row. -/
structure Tidy (sep : Char) (cs : List Char) : Prop where
  first : cs.head? ≠ some sep
  last : cs.getLast? ≠ some sep
  apart : cs.IsChain fun a b => a ≠ sep ∨ b ≠ sep

instance (sep : Char) (cs : List Char) : Decidable (Tidy sep cs) :=
  decidable_of_iff (cs.head? ≠ some sep ∧ cs.getLast? ≠ some sep ∧
      cs.IsChain fun a b => a ≠ sep ∨ b ≠ sep)
    ⟨fun ⟨hfirst, hlast, hapart⟩ => ⟨hfirst, hlast, hapart⟩, fun h => ⟨h.first, h.last, h.apart⟩⟩

private theorem splitOn_cons_of_ne {c : Char} (hc : c ≠ sep) {part : List Char}
    {parts : List (List Char)} (hs : splitOn sep cs = part :: parts) :
    splitOn sep (c :: cs) = (c :: part) :: parts := by
  have hfirst : ∀ d ∈ [c], (d == sep) = false := by simpa using hc
  exact splitWhere_append_left hfirst hs

private theorem splitOn_cons_self : splitOn sep (sep :: cs) = [] :: splitOn sep cs :=
  splitWhere_append_cons (by simp) [] cs

private theorem exists_splitOn_eq_cons (sep : Char) (cs : List Char) :
    ∃ part parts, splitOn sep cs = part :: parts :=
  List.exists_cons_of_ne_nil (splitWhere_ne_nil _ cs)

private theorem first_eq_nil_iff {part : List Char} {parts : List (List Char)}
    (hs : splitOn sep cs = part :: parts) : part = [] ↔ cs = [] ∨ cs.head? = some sep := by
  cases cs with
  | nil =>
    obtain ⟨rfl, rfl⟩ : [] = part ∧ [] = parts := by simpa [splitOn, splitWhere] using hs
    simp
  | cons c cs =>
    by_cases hc : c = sep
    · subst hc
      rw [splitOn_cons_self, List.cons.injEq] at hs
      simp [← hs.1]
    · obtain ⟨next, rest, hrest⟩ := exists_splitOn_eq_cons sep cs
      rw [splitOn_cons_of_ne hc hrest, List.cons.injEq] at hs
      simp [← hs.1, hc]

private theorem rest_nonempty_iff {part : List Char} {parts : List (List Char)}
    (hs : splitOn sep cs = part :: parts) :
    [] ∉ parts ↔ cs.getLast? ≠ some sep ∧ cs.IsChain fun a b => a ≠ sep ∨ b ≠ sep := by
  induction cs generalizing part parts with
  | nil =>
    obtain ⟨rfl, rfl⟩ : [] = part ∧ [] = parts := by simpa [splitOn, splitWhere] using hs
    simp
  | cons c cs ih =>
    obtain ⟨next, rest, hrest⟩ := exists_splitOn_eq_cons sep cs
    have hnext := first_eq_nil_iff hrest
    have hlater := ih hrest
    rw [List.isChain_cons]
    -- Behind a separator the next part counts among the others, and has to have a character.
    by_cases hc : c = sep
    · subst hc
      rw [splitOn_cons_self, List.cons.injEq] at hs
      rw [← hs.2, hrest, List.mem_cons, not_or, hlater, eq_comm (a := []), hnext]
      cases cs with
      | nil => simp
      | cons d ds => simp [List.getLast?_cons_cons, and_left_comm]
    · rw [splitOn_cons_of_ne hc hrest, List.cons.injEq] at hs
      rw [← hs.2, hlater]
      cases cs with
      | nil => simp [hc]
      | cons d ds => simp [List.getLast?_cons_cons, hc]

theorem tidy_iff : Tidy sep cs ↔ cs = [] ∨ [] ∉ splitOn sep cs := by
  obtain ⟨part, parts, hs⟩ := exists_splitOn_eq_cons sep cs
  have hfirst := first_eq_nil_iff hs
  have hrest := rest_nonempty_iff hs
  rw [hs, List.mem_cons, not_or, hrest, eq_comm (a := []), hfirst, not_or]
  constructor
  · intro h
    by_cases hnil : cs = []
    · exact .inl hnil
    · exact .inr ⟨⟨hnil, h.first⟩, h.last, h.apart⟩
  · rintro (rfl | ⟨⟨-, hhead⟩, hlast, hapart⟩)
    · exact ⟨by simp, by simp, by simp⟩
    · exact ⟨hhead, hlast, hapart⟩

theorem tidy_joinWith {parts : List (List Char)} (hne : [] ∉ parts)
    (hsep : ∀ part ∈ parts, sep ∉ part) : Tidy sep (joinWith sep parts) := by
  rw [tidy_iff]
  by_cases hnil : parts = []
  · exact .inl (by rw [hnil, joinWith])
  · exact .inr (by rwa [splitOn_joinWith hnil hsep])

/-- The parts of a text between the characters that satisfy `p`, except for empty ones. -/
def partsBetween (p : Char → Bool) (cs : List Char) : List (List Char) :=
  (splitWhere p cs).filter (!·.isEmpty)

theorem nil_not_mem_partsBetween : [] ∉ partsBetween p cs := by
  simp [partsBetween]

theorem of_mem_partsBetween {part : List Char} (h : part ∈ partsBetween p cs) {c : Char}
    (hc : c ∈ part) : p c = false :=
  of_mem_splitWhere (List.mem_filter.1 h).1 hc

theorem partsBetween_of_no_match (h : ∀ c ∈ cs, p c = false) :
    partsBetween p cs = [cs].filter (!·.isEmpty) := by
  rw [partsBetween, splitWhere_eq_singleton h]

theorem partsBetween_congr (h : ∀ c ∈ cs, p c = q c) : partsBetween p cs = partsBetween q cs := by
  have hsplit : splitWhere p cs = splitWhere q cs := by
    induction cs with
    | nil => rfl
    | cons c cs ih =>
      obtain ⟨hc, hcs⟩ := List.forall_mem_cons.1 h
      rw [splitWhere, splitWhere, hc, ih hcs]
  rw [partsBetween, hsplit]
  rfl

theorem partsBetween_append_cons {c : Char} (hc : p c) (as bs : List Char) :
    partsBetween p (as ++ c :: bs) = partsBetween p as ++ partsBetween p bs := by
  rw [partsBetween, splitWhere_append_cons hc, List.filter_append]
  rfl

theorem partsBetween_cons {c : Char} (hc : p c) (cs : List Char) :
    partsBetween p (c :: cs) = partsBetween p cs :=
  partsBetween_append_cons hc [] cs

theorem partsBetween_concat {c : Char} (hc : p c) (cs : List Char) :
    partsBetween p (cs ++ [c]) = partsBetween p cs := by
  rw [partsBetween_append_cons hc]
  exact List.append_nil _

theorem joinWith_partsBetween_eq_self_iff :
    joinWith sep (partsBetween (· == sep) cs) = cs ↔ Tidy sep cs := by
  constructor
  · intro h
    rw [← h]
    refine tidy_joinWith nil_not_mem_partsBetween fun part hpart hmem => ?_
    simpa using of_mem_partsBetween hpart hmem
  · intro h
    rcases tidy_iff.1 h with rfl | hne
    · rfl
    · have hall : (splitOn sep cs).filter (!·.isEmpty) = splitOn sep cs := by
        refine List.filter_eq_self.2 fun part hpart => ?_
        have hpart : part ≠ [] := fun hnil => hne (hnil ▸ hpart)
        simpa using hpart
      exact (congrArg (joinWith sep) hall).trans (joinWith_splitOn sep cs)

/-- A text with `sep` in the place of each maximal run of characters that satisfy `p`. -/
def replaceRuns (p : Char → Bool) (sep : Char) : List Char → List Char
  | [] => []
  | c :: cs => if p c then sep :: replaceRuns p sep (cs.dropWhile p) else c :: replaceRuns p sep cs
termination_by cs => cs.length
decreasing_by
  · exact Nat.lt_succ_of_le (List.length_dropWhile_le p cs)
  · exact Nat.lt_succ_self cs.length

theorem partsBetween_dropWhile (h : ∀ c, q c → p c) :
    partsBetween p (cs.dropWhile q) = partsBetween p cs := by
  induction cs with
  | nil => rfl
  | cons c cs ih =>
    rw [List.dropWhile_cons]
    split
    · next hc => rw [ih, partsBetween_cons (h c hc)]
    · rfl

private theorem partsBetween_append_replaceRuns (as : List Char)
    (has : ∀ c ∈ as, (q c || c == sep) = false) :
    partsBetween (· == sep) (as ++ replaceRuns q sep cs) =
      partsBetween (fun c => q c || c == sep) (as ++ cs) := by
  have hparts {as : List Char} (has : ∀ c ∈ as, (q c || c == sep) = false) :
      partsBetween (· == sep) as = partsBetween (fun c => q c || c == sep) as := by
    rw [partsBetween_of_no_match has, partsBetween_of_no_match]
    exact fun c hc => (Bool.or_eq_false_iff.1 (has c hc)).2
  -- `as` is what has been read of a part; it grows until a run or a separator ends the part.
  fun_induction replaceRuns q sep cs generalizing as with
  | case1 => rw [List.append_nil, hparts has]
  | case2 c cs hc ih =>
    have hrest := ih [] (by simp)
    rw [partsBetween_append_cons (by simp), partsBetween_append_cons (by simp [hc]), hparts has]
    rw [List.nil_append, List.nil_append, partsBetween_dropWhile fun c hc => by simp [hc]] at hrest
    rw [hrest]
  | case3 c cs hc ih =>
    by_cases hsep : c = sep
    · have hrest := ih [] (by simp)
      rw [partsBetween_append_cons (by simp [hsep]), partsBetween_append_cons (by simp [hsep]),
        hparts has]
      exact congrArg _ hrest
    · have hread : ∀ d ∈ as ++ [c], (q d || d == sep) = false := by
        intro d hd
        rcases List.mem_append.1 hd with hd | hd
        · exact has d hd
        · rw [List.mem_singleton.1 hd]
          simpa [hsep] using hc
      have hlonger := ih (as ++ [c]) hread
      rwa [List.append_assoc, List.append_assoc] at hlonger

theorem partsBetween_replaceRuns : partsBetween (· == sep) (replaceRuns q sep cs) =
    partsBetween (fun c => q c || c == sep) cs :=
  partsBetween_append_replaceRuns [] (by simp)

theorem partsBetween_trimBy : partsBetween p (trimBy p cs) = partsBetween p cs := by
  have hright (cs : List Char) : partsBetween p (cs.rdropWhile p) = partsBetween p cs := by
    induction cs using List.reverseRecOn with
    | nil => rfl
    | append_singleton cs c ih =>
      by_cases hc : p c
      · rw [List.rdropWhile_concat_pos p cs c hc, ih, partsBetween_concat hc]
      · rw [List.rdropWhile_concat_neg p cs c hc]
  exact (hright (cs.dropWhile p)).trans (partsBetween_dropWhile fun _ hc => hc)

private theorem head?_dropWhile_ne (cs : List Char) :
    (cs.dropWhile (· == sep)).head? ≠ some sep := by
  intro h
  have hhead := List.head?_dropWhile_not (· == sep) cs
  rw [h] at hhead
  simp at hhead

private theorem head?_replaceRuns_self (cs : List Char) :
    (replaceRuns (· == sep) sep cs).head? = cs.head? := by
  unfold replaceRuns
  cases cs with
  | nil => rfl
  | cons c cs =>
    by_cases hc : c = sep <;> simp [hc]

theorem isChain_replaceRuns (sep : Char) (cs : List Char) :
    (replaceRuns (· == sep) sep cs).IsChain fun a b => a ≠ sep ∨ b ≠ sep := by
  fun_induction replaceRuns (· == sep) sep cs with
  | case1 => exact .nil
  | case2 c cs hc ih =>
    refine List.isChain_cons.2 ⟨fun d hd => .inr ?_, ih⟩
    rintro rfl
    rw [head?_replaceRuns_self] at hd
    exact head?_dropWhile_ne cs hd
  | case3 c cs hc ih => exact List.isChain_cons.2 ⟨fun _ _ => .inl (by simpa using hc), ih⟩

theorem tidy_trimBy (h : cs.IsChain fun a b => a ≠ sep ∨ b ≠ sep) :
    Tidy sep (trimBy (· == sep) cs) := by
  have hprefix : trimBy (· == sep) cs <+: cs.dropWhile (· == sep) := List.rdropWhile_prefix _ _
  obtain ⟨rest, hrest⟩ := hprefix
  refine ⟨fun hfirst => ?_, fun hlast => ?_, ?_⟩
  · have hhead : (cs.dropWhile (· == sep)).head? = some sep := by
      rw [← hrest, List.head?_append, hfirst]
      rfl
    exact head?_dropWhile_ne cs hhead
  · rw [trimBy, List.getLast?_reverse] at hlast
    exact head?_dropWhile_ne _ hlast
  · have hbehind := h.suffix (List.dropWhile_suffix (· == sep))
    rw [← hrest] at hbehind
    exact hbehind.left_of_append

/-- The parts joined by separators are what is left when the runs between them are replaced, the
separators of each run made one, and those at the ends taken away. -/
theorem trimBy_replaceRuns_replaceRuns (q : Char → Bool) (sep : Char) (cs : List Char) :
    trimBy (· == sep) (replaceRuns (· == sep) sep (replaceRuns q sep cs)) =
      joinWith sep (partsBetween (fun c => q c || c == sep) cs) := by
  have htidy := tidy_trimBy (isChain_replaceRuns sep (replaceRuns q sep cs))
  rw [← joinWith_partsBetween_eq_self_iff.2 htidy, partsBetween_trimBy, partsBetween_replaceRuns]
  simp only [Bool.or_self]
  rw [partsBetween_replaceRuns]

end Text

/-- Words of letters and digits of ASCII with single underscores between them. -/
structure IsSanitized (s : String) : Prop where
  characters : ∀ c ∈ s.toList, c.isAlphanum ∨ c = '_'
  tidy : Text.Tidy '_' s.toList

namespace Naming

open Text

def isForeign (c : Char) : Bool := !c.isAlphanum && c != '_'

theorem chunks_eq_partsBetween [Spelling] (s : String) :
    chunks s = partsBetween (fun c => !c.isAlphanum) (s.toList.flatMap Spelling.ascii) := rfl

theorem underscore_not_mem_chunk [Spelling] {s : String} {chunk : List Char}
    (h : chunk ∈ chunks s) : '_' ∉ chunk := by
  intro hmem
  exact absurd (alphanumeric_of_mem_chunks h '_' hmem) (by decide)

theorem isSanitized_sanitize [Spelling] (s : String) : IsSanitized (sanitize s) where
  characters c := mem_sanitize
  tidy := by
    rw [sanitize, String.toList_ofList]
    exact tidy_joinWith nil_not_mem_partsBetween fun _ => underscore_not_mem_chunk

theorem sanitize_of_isSanitized [Spelling] (hascii : ∀ c, c.toNat < 128 → Spelling.ascii c = [c])
    {s : String} (h : IsSanitized s) : sanitize s = s := by
  have hspelled : s.toList.flatMap Spelling.ascii = s.toList := by
    refine flatMap_ascii hascii fun c hc => ?_
    rcases h.characters c hc with halphanum | rfl
    · exact toNat_lt_of_isAlphanum halphanum
    · decide
  have hchunks : chunks s = partsBetween (· == '_') s.toList := by
    rw [chunks_eq_partsBetween, hspelled]
    refine partsBetween_congr fun c hc => ?_
    rcases h.characters c hc with halphanum | rfl
    · have hne : c ≠ '_' := by
        rintro rfl
        exact absurd halphanum (by decide)
      simp [halphanum, hne]
    · decide
  rw [sanitize, hchunks, joinWith_partsBetween_eq_self_iff.2 h.tidy, String.ofList_toList]

theorem sanitize_eq_trimBy [Spelling] (s : String) : (sanitize s).toList =
    trimBy (· == '_') (replaceRuns (· == '_') '_'
      (replaceRuns isForeign '_' (s.toList.flatMap Spelling.ascii))) := by
  have hcases : (fun c => isForeign c || c == '_') = fun c => !c.isAlphanum := by
    funext c
    by_cases hc : c = '_'
    · subst hc
      decide
    · have hne : (c == '_') = false := beq_eq_false_iff_ne.2 hc
      rw [isForeign, bne, hne, Bool.not_false, Bool.and_true, Bool.or_false]
  rw [trimBy_replaceRuns_replaceRuns, hcases, sanitize, String.toList_ofList,
    chunks_eq_partsBetween]

/-- Sanitizing gives words of letters and digits with single underscores between them. It leaves a
text as it is exactly when it is of this form, and so it changes nothing the second time. The result
is the text in ASCII with each run of foreign characters replaced by an underscore, then each run of
underscores by one, and then those at the ends taken away. -/
theorem sanitize_normalizes [Spelling] (hascii : ∀ c, c.toNat < 128 → Spelling.ascii c = [c]) :
    (∀ s, IsSanitized (sanitize s)) ∧
    (∀ s, sanitize s = s ↔ IsSanitized s) ∧
    (∀ s, sanitize (sanitize s) = sanitize s) ∧
    ∀ s, (sanitize s).toList = trimBy (· == '_') (replaceRuns (· == '_') '_'
      (replaceRuns isForeign '_' (s.toList.flatMap Spelling.ascii))) := by
  have hfixed (s : String) : sanitize s = s ↔ IsSanitized s :=
    ⟨fun h => h ▸ isSanitized_sanitize s, sanitize_of_isSanitized hascii⟩
  have hagain (s : String) : sanitize (sanitize s) = sanitize s :=
    (hfixed _).2 (isSanitized_sanitize s)
  exact ⟨isSanitized_sanitize, hfixed, hagain, sanitize_eq_trimBy⟩

def spellGerman (c : Char) : List Char :=
  if c = 'ß' then ['s', 's'] else if c = '—' then ['-'] else []

abbrev german : Spelling := .ofOthers spellGerman

attribute [local instance] german

theorem streetName_normalizes :
    (∀ c, c.toNat < 128 → Spelling.ascii c = [c]) ∧
    sanitize "__Straße —_Nr. 7!_" = "Strasse_Nr_7" ∧
    IsSanitized "Strasse_Nr_7" ∧ sanitize "Strasse_Nr_7" = "Strasse_Nr_7" ∧
    ¬IsSanitized "Nr__7" ∧ sanitize "Nr__7" ≠ "Nr__7" := by
  have hascii : ∀ c, c.toNat < 128 → Spelling.ascii c = [c] := fun _ => Spelling.ascii_ofOthers _
  have hname : sanitize "__Straße —_Nr. 7!_" = "Strasse_Nr_7" := by decide +kernel
  have hrepeated : ¬IsSanitized "Nr__7" := fun h => absurd h.tidy (by decide)
  obtain ⟨hsanitized, hfixed, hagain, -⟩ := sanitize_normalizes hascii
  exact ⟨hascii, hname, hname ▸ hsanitized _, hname ▸ hagain _, hrepeated,
    fun h => hrepeated ((hfixed _).1 h)⟩

end Naming

end RequestDocs
