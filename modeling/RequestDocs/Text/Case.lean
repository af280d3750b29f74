import RequestDocs.Text.CaseTables
import RequestDocs.Text.Ranges
/-!
# Letter case

Full lower-case and upper-case images of text. A character may map to several (`ß` to `SS`), and a
capital sigma at the end of a word maps to the final form.
-/

namespace RequestDocs.Text

/-- The image of one character: of ASCII by the rule for ASCII, of any other by its expansion or by
the run it stands in. A character in neither is its own image. -/
private def mapChar (ascii : Char → Char) (expansions : List (Nat × List Nat))
    (ranges : List CaseRange) (c : Char) : List Char :=
  if c.toNat < 128 then [ascii c]
  else match expansions.lookup c.toNat with
    | some codes => codes.map Char.ofNat
    | none => match ranges.findSome? (·.image? c.toNat) with
      | some code => [Char.ofNat code]
      | none => [c]

def lowerChar : Char → List Char := mapChar Char.toLower lowerExpansions lowerRanges

def upperChar : Char → List Char := mapChar Char.toUpper upperExpansions upperRanges

/-- Whether the first character that counts is a cased letter. -/
def startsCased : List Char → Bool
  | [] => false
  | c :: cs =>
    if inRanges caseIgnorableRanges c.toNat then startsCased cs
    else inRanges casedRanges c.toNat

/-- Lower-casing of the characters after `before`, which is kept in reverse. -/
private def lowerAfter (before : List Char) : List Char → List Char
  | [] => []
  | c :: cs =>
    let image :=
      if c == 'Σ' then [if startsCased before && !startsCased cs then 'ς' else 'σ']
      else lowerChar c
    image ++ lowerAfter (c :: before) cs

def toLower (s : String) : String := String.ofList (lowerAfter [] s.toList)

private theorem lowerAfter_of_ascii (before : List Char) {cs : List Char}
    (h : ∀ c ∈ cs, c.toNat < 128) : lowerAfter before cs = cs.map Char.toLower := by
  induction cs generalizing before with
  | nil => rfl
  | cons c cs ih =>
    obtain ⟨hc, hcs⟩ := List.forall_mem_cons.1 h
    have hsigma : (c == 'Σ') = false := by
      rw [beq_eq_false_iff_ne]
      rintro rfl
      exact absurd hc (by decide)
    simp [lowerAfter, hsigma, lowerChar, mapChar, hc, ih (c :: before) hcs]

theorem toLower_of_ascii {s : String} (h : ∀ c ∈ s.toList, c.toNat < 128) :
    toLower s = String.ofList (s.toList.map Char.toLower) := by
  rw [toLower, lowerAfter_of_ascii [] h]

def toUpper (s : String) : String := String.ofList (s.toList.flatMap upperChar)

private theorem eq_ten_of_ofNat {code : Nat} (h : Char.ofNat code = '\n') : code = 10 := by
  by_cases hvalid : code.isValidChar
  · have hchar : Char.ofNat code = Char.ofNatAux code hvalid := dif_pos hvalid
    exact congrArg Char.toNat (hchar.symm.trans h)
  · have hchar : Char.ofNat code = '\x00' := dif_neg hvalid
    exact absurd (hchar.symm.trans h) (by decide)

theorem eq_newline_of_mem_upperChar {c : Char} (h : '\n' ∈ upperChar c) : c = '\n' := by
  have hascii : ∀ code < 128, '\n' = (Char.ofNat code).toUpper → code = 10 := by decide +kernel
  have hcodes : ∀ entry ∈ upperExpansions, 10 ∉ entry.2 := by decide +kernel
  have himages : ∀ r ∈ upperRanges, 10 < r.image := by decide +kernel
  unfold upperChar mapChar at h
  split at h
  · next hsmall =>
    have hcode := hascii c.toNat hsmall (by rw [Char.ofNat_toNat]; exact List.mem_singleton.1 h)
    rw [← Char.ofNat_toNat c, hcode]
  · split at h
    · next codes hlookup =>
      obtain ⟨code, hcode, heq⟩ := List.mem_map.1 h
      obtain ⟨before, after, hentries, -⟩ := List.lookup_eq_some_iff.1 hlookup
      have hentry : (c.toNat, codes) ∈ upperExpansions := by simp [hentries]
      exact absurd (eq_ten_of_ofNat heq ▸ hcode) (hcodes _ hentry)
    · split at h
      · next code hfound =>
        obtain ⟨r, hr, himage⟩ := List.exists_of_findSome?_eq_some hfound
        have hcode := eq_ten_of_ofNat (List.mem_singleton.1 h).symm
        have habove := himages r hr
        unfold CaseRange.image? at himage
        split at himage
        · injection himage
          omega
        · cases himage
      · exact (List.mem_singleton.1 h).symm

theorem newline_mem_of_toUpper {s : String} (h : '\n' ∈ (toUpper s).toList) : '\n' ∈ s.toList := by
  rw [toUpper, String.toList_ofList] at h
  obtain ⟨c, hc, hmem⟩ := List.mem_flatMap.1 h
  rwa [eq_newline_of_mem_upperChar hmem] at hc

end RequestDocs.Text
