import RequestDocs.Proofs.Identifiers
/-!
# Names of fields and their keys

The key of a field keeps the words of its name, but neither their case nor what stands between them.
If ASCII is spelled as it is, two names have the same key exactly when they read alike.
-/

namespace RequestDocs

namespace Text

theorem flatten_splitWhere (p : Char → Bool) (cs : List Char) :
    (splitWhere p cs).flatten = cs.filter fun c => !p c := by
  induction cs with
  | nil => rfl
  | cons c cs ih =>
    unfold splitWhere
    split
    · next hc => simpa [hc] using ih
    · next hc =>
      split
      · next hnil => exact absurd hnil (splitWhere_ne_nil p cs)
      · next first rest hsplit =>
        rw [hsplit] at ih
        simpa [hc] using ih

end Text

namespace Naming

open Text

def joinDigits : List (List Char) → List (List Char)
  | [] => []
  | word :: words =>
    match joinDigits words with
    | [] => [word]
    | next :: rest => if startsWithDigit next then (word ++ next) :: rest else word :: next :: rest

/-- The words of a text in lower case. A number is spoken with the word before it. -/
def spokenWords [Spelling] (s : String) : List (List Char) := joinDigits ((words s).map lowercase)

/-- Two texts with words, and the same ones when spoken. -/
def ReadAlike [Spelling] (a b : String) : Prop := words a ≠ [] ∧ spokenWords a = spokenWords b

instance [Spelling] (a b : String) : Decidable (ReadAlike a b) :=
  inferInstanceAs (Decidable (words a ≠ [] ∧ spokenWords a = spokenWords b))

def Small (word : List Char) : Prop := word ≠ [] ∧ ∀ c ∈ word, c.isLower ∨ c.isDigit

private theorem isAlphanum_of_small {c : Char} (h : c.isLower ∨ c.isDigit) : c.isAlphanum := by
  change ((c.isUpper || c.isLower) || c.isDigit) = true
  rcases h with h | h <;> simp [h]

theorem small_map_lowercase {ws : List (List Char)}
    (h : ∀ word ∈ ws, word ≠ [] ∧ ∀ c ∈ word, c.isAlphanum) : ∀ word ∈ ws.map lowercase, Small word := by
  intro word hword
  obtain ⟨origin, horigin, rfl⟩ := List.mem_map.1 hword
  obtain ⟨hne, halphanum⟩ := h origin horigin
  refine ⟨by simpa [lowercase] using hne, fun c hc => ?_⟩
  obtain ⟨d, hd, rfl⟩ := List.mem_map.1 hc
  exact of_isAlphanum (P := fun c => c.toLower.isLower ∨ c.toLower.isDigit) (by decide +kernel)
    (halphanum d hd)

theorem small_lowercase [Spelling] {s : String} : ∀ word ∈ (words s).map lowercase, Small word :=
  small_map_lowercase fun _ => alphanumeric_of_mem_words

def humped : List (List Char) → List Char
  | [] => []
  | word :: rest => word ++ rest.flatMap capitalize

theorem camelCase_eq_humped (ws : List (List Char)) : camelCase ws = humped (ws.map lowercase) := by
  cases ws with
  | nil => rfl
  | cons word rest => simp [camelCase, humped, List.flatMap_map]

theorem capitalize_append {word : List Char} (h : word ≠ []) (next : List Char) :
    capitalize (word ++ next) = capitalize word ++ next := by
  cases word with
  | nil => exact absurd rfl h
  | cons c cs => rfl

theorem capitalize_of_startsWithDigit {word : List Char} (h : startsWithDigit word) :
    capitalize word = word := by
  cases word with
  | nil => rfl
  | cons c cs =>
    have hdigit : c.isDigit := h
    have hupper : c.toUpper = c :=
      of_isAlphanum (P := fun c => c.isDigit → c.toUpper = c) (by decide +kernel)
        (isAlphanum_of_small (.inr hdigit)) hdigit
    rw [capitalize, hupper]

theorem flatMap_capitalize_joinDigits {ws : List (List Char)} (h : ∀ word ∈ ws, Small word) :
    (joinDigits ws).flatMap capitalize = ws.flatMap capitalize := by
  induction ws with
  | nil => rfl
  | cons word ws ih =>
    obtain ⟨hword, hws⟩ := List.forall_mem_cons.1 h
    rw [List.flatMap_cons, ← ih hws, joinDigits]
    split
    · next hnil => rw [hnil, List.flatMap_singleton, List.flatMap_nil, List.append_nil]
    · next next rest hjoined =>
      rw [hjoined]
      split
      · next hdigit =>
        rw [List.flatMap_cons, capitalize_append hword.1, List.flatMap_cons,
          capitalize_of_startsWithDigit hdigit, List.append_assoc]
      · rfl

theorem humped_joinDigits {ws : List (List Char)} (h : ∀ word ∈ ws, Small word) :
    humped (joinDigits ws) = humped ws := by
  cases ws with
  | nil => rfl
  | cons word ws =>
    obtain ⟨hword, hws⟩ := List.forall_mem_cons.1 h
    rw [humped, ← flatMap_capitalize_joinDigits hws, joinDigits]
    split
    · next hnil => simp [humped, hnil]
    · next next rest hjoined =>
      rw [hjoined]
      split
      · next hdigit => simp [humped, capitalize_of_startsWithDigit hdigit]
      · rfl

def Lettered (word : List Char) : Prop := Small word ∧ startsWithDigit word = false

/-- Small words of which only the first may start with a digit. -/
def Spoken : List (List Char) → Prop
  | [] => True
  | word :: rest => Small word ∧ ∀ other ∈ rest, Lettered other

theorem spoken_joinDigits {ws : List (List Char)} (h : ∀ word ∈ ws, Small word) :
    Spoken (joinDigits ws) := by
  induction ws with
  | nil => trivial
  | cons word ws ih =>
    obtain ⟨hword, hws⟩ := List.forall_mem_cons.1 h
    rw [joinDigits]
    split
    · exact ⟨hword, by simp⟩
    · next next rest hjoined =>
      obtain ⟨hnext, hrest⟩ := hjoined ▸ ih hws
      split
      · refine ⟨⟨by simp [hword.1], fun c hc => ?_⟩, hrest⟩
        exact (List.mem_append.1 hc).elim (hword.2 c) (hnext.2 c)
      · next hletter => exact ⟨hword, List.forall_mem_cons.2 ⟨⟨hnext, by simpa using hletter⟩, hrest⟩⟩

theorem not_isUpper_of_small {c : Char} (h : c.isLower ∨ c.isDigit) : !c.isUpper :=
  of_isAlphanum (P := fun c => c.isLower ∨ c.isDigit → !c.isUpper) (by decide +kernel)
    (isAlphanum_of_small h) h

private theorem append_inj_of_small {as bs rest rest' : List Char}
    (has : ∀ c ∈ as, c.isLower ∨ c.isDigit) (hbs : ∀ c ∈ bs, c.isLower ∨ c.isDigit)
    (hrest : ∀ c ∈ rest.head?, c.isUpper) (hrest' : ∀ c ∈ rest'.head?, c.isUpper)
    (h : as ++ rest = bs ++ rest') : as = bs ∧ rest = rest' := by
  have hstop {cs : List Char} (hcs : ∀ c ∈ cs.head?, c.isUpper) :
      cs.takeWhile (fun c => !c.isUpper) = [] := by
    cases cs with
    | nil => rfl
    | cons c cs => simp [hcs c rfl]
  have htake := congrArg (List.takeWhile fun c => !c.isUpper) h
  rw [List.takeWhile_append_of_pos fun c hc => not_isUpper_of_small (has c hc), hstop hrest,
    List.takeWhile_append_of_pos fun c hc => not_isUpper_of_small (hbs c hc), hstop hrest',
    List.append_nil, List.append_nil] at htake
  subst htake
  exact ⟨rfl, List.append_cancel_left h⟩

private theorem Lettered.exists_capital {word : List Char} (h : Lettered word) :
    ∃ c cs, word = c :: cs ∧ capitalize word = c.toUpper :: cs ∧ c.toUpper.isUpper ∧
      c.toUpper.toLower = c ∧ ∀ d ∈ cs, d.isLower ∨ d.isDigit := by
  obtain ⟨⟨hne, hchars⟩, hletter⟩ := h
  cases word with
  | nil => exact absurd rfl hne
  | cons c cs =>
    obtain ⟨hc, hcs⟩ := List.forall_mem_cons.1 hchars
    have hother : c.isDigit = false := hletter
    have hlower : c.isLower := hc.resolve_right (by simp [hother])
    obtain ⟨hupper, hback⟩ :=
      of_isAlphanum (P := fun c => c.isLower → c.toUpper.isUpper ∧ c.toUpper.toLower = c)
        (by decide +kernel) (isAlphanum_of_small hc) hlower
    exact ⟨c, cs, rfl, rfl, hupper, hback, hcs⟩

private theorem head_flatMap_capitalize {ws : List (List Char)} (h : ∀ word ∈ ws, Lettered word) :
    ∀ c ∈ (ws.flatMap capitalize).head?, c.isUpper := by
  cases ws with
  | nil => simp
  | cons word ws =>
    obtain ⟨c, cs, -, hcapital, hupper, -⟩ := (h word List.mem_cons_self).exists_capital
    rw [List.flatMap_cons, hcapital]
    simpa using hupper

private theorem flatMap_capitalize_inj {ws ws' : List (List Char)} (h : ∀ word ∈ ws, Lettered word)
    (h' : ∀ word ∈ ws', Lettered word) (heq : ws.flatMap capitalize = ws'.flatMap capitalize) :
    ws = ws' := by
  induction ws generalizing ws' with
  | nil =>
    cases ws' with
    | nil => rfl
    | cons word' ws' =>
      obtain ⟨c, cs, -, hcapital, -⟩ := (h' word' List.mem_cons_self).exists_capital
      simp [hcapital] at heq
  | cons word ws ih =>
    obtain ⟨hword, hws⟩ := List.forall_mem_cons.1 h
    obtain ⟨c, cs, rfl, hcapital, -, hback, hcs⟩ := hword.exists_capital
    cases ws' with
    | nil => simp [hcapital] at heq
    | cons word' ws' =>
      obtain ⟨hword', hws'⟩ := List.forall_mem_cons.1 h'
      obtain ⟨d, ds, rfl, hcapital', -, hback', hds⟩ := hword'.exists_capital
      rw [List.flatMap_cons, List.flatMap_cons, hcapital, hcapital'] at heq
      obtain ⟨hhead, htail⟩ := List.cons.inj heq
      obtain ⟨rfl, hrest⟩ := append_inj_of_small hcs hds (head_flatMap_capitalize hws)
        (head_flatMap_capitalize hws') htail
      rw [← hback, hhead, hback', ih hws hws' hrest]

theorem Spoken.eq_of_humped {ws ws' : List (List Char)} (h : Spoken ws) (h' : Spoken ws')
    (hne : ws ≠ []) (hne' : ws' ≠ []) (heq : humped ws = humped ws') : ws = ws' := by
  cases ws with
  | nil => exact absurd rfl hne
  | cons word rest =>
    cases ws' with
    | nil => exact absurd rfl hne'
    | cons word' rest' =>
      obtain ⟨rfl, hrest⟩ := append_inj_of_small h.1.2 h'.1.2 (head_flatMap_capitalize h.2)
        (head_flatMap_capitalize h'.2) heq
      rw [flatMap_capitalize_inj h.2 h'.2 hrest]

theorem joinDigits_eq_nil_iff {ws : List (List Char)} : joinDigits ws = [] ↔ ws = [] := by
  cases ws with
  | nil => simp [joinDigits]
  | cons word ws =>
    rw [joinDigits]
    split
    · simp
    · split <;> simp

theorem spokenWords_eq_nil_iff [Spelling] {s : String} : spokenWords s = [] ↔ words s = [] := by
  rw [spokenWords, joinDigits_eq_nil_iff, List.map_eq_nil_iff]

theorem fieldName_of_words [Spelling] {s : String} (h : words s ≠ []) :
    fieldName s = String.ofList (camelCase (words s)) := by
  unfold fieldName
  split
  · next hnil => exact absurd hnil h
  · rfl

theorem fieldName_eq_humped [Spelling] {s : String} (h : words s ≠ []) :
    fieldName s = String.ofList (humped (spokenWords s)) := by
  rw [spokenWords, humped_joinDigits small_lowercase, ← camelCase_eq_humped, fieldName_of_words h]

theorem fieldName_of_no_words [Spelling] {s : String} (h : words s = []) : fieldName s = s := by
  rw [fieldName, h]

theorem flatten_words [Spelling] (s : String) :
    (words s).flatten = (s.toList.flatMap Spelling.ascii).filter Char.isAlphanum := by
  have hcut : (words s).flatten = (chunks s).flatten := flatten_flatMap_cutBefore _ (chunks s)
  rw [hcut, chunks, List.flatten_filter_not_isEmpty, flatten_splitWhere]
  simp only [Bool.not_not]

section Ascii

variable [Spelling] (hascii : ∀ c, c.toNat < 128 → Spelling.ascii c = [c])
include hascii

theorem words_ne_nil {s : String} {c : Char} (hc : c ∈ s.toList) (halphanum : c.isAlphanum) :
    words s ≠ [] := by
  have hspelled : c ∈ s.toList.flatMap Spelling.ascii := by
    refine List.mem_flatMap.2 ⟨c, hc, ?_⟩
    rw [hascii c (toNat_lt_of_isAlphanum halphanum)]
    exact List.mem_singleton_self c
  have hword : c ∈ (words s).flatten := by
    rw [flatten_words]
    exact List.mem_filter.2 ⟨hspelled, halphanum⟩
  intro hnil
  simp [hnil] at hword

theorem words_fieldName_eq_nil_iff {s : String} : words (fieldName s) = [] ↔ words s = [] := by
  constructor
  · intro hkey
    by_contra hwords
    have hspoken := mt spokenWords_eq_nil_iff.1 hwords
    obtain ⟨word, rest, heq⟩ := List.exists_cons_of_ne_nil hspoken
    have hsmall : Spoken (word :: rest) := heq ▸ spoken_joinDigits small_lowercase
    obtain ⟨c, hc⟩ := List.exists_mem_of_ne_nil word hsmall.1.1
    have hmem : c ∈ (fieldName s).toList := by
      rw [fieldName_eq_humped hwords, heq, String.toList_ofList]
      exact List.mem_append_left _ hc
    exact words_ne_nil hascii hmem (isIdentifier_fieldName hwords c hmem) hkey
  · intro h
    rwa [fieldName_of_no_words h]

/-- Two names have the same key exactly when they are the same or read alike. -/
theorem fieldName_eq_iff {a b : String} : fieldName a = fieldName b ↔ a = b ∨ ReadAlike a b := by
  constructor
  · intro heq
    have hnone : words a = [] ↔ words b = [] := by
      rw [← words_fieldName_eq_nil_iff hascii, heq, words_fieldName_eq_nil_iff hascii]
    by_cases ha : words a = []
    · rw [fieldName_of_no_words ha, fieldName_of_no_words (hnone.1 ha)] at heq
      exact .inl heq
    · have hb := mt hnone.2 ha
      rw [fieldName_eq_humped ha, fieldName_eq_humped hb, String.ofList_inj] at heq
      refine .inr ⟨ha, ?_⟩
      exact (spoken_joinDigits small_lowercase).eq_of_humped (spoken_joinDigits small_lowercase)
        (mt spokenWords_eq_nil_iff.1 ha) (mt spokenWords_eq_nil_iff.1 hb) heq
  · rintro (rfl | ⟨ha, hspoken⟩)
    · rfl
    · have hb : words b ≠ [] := by
        intro hb
        exact ha (spokenWords_eq_nil_iff.1 (hspoken.trans (spokenWords_eq_nil_iff.2 hb)))
      rw [fieldName_eq_humped ha, fieldName_eq_humped hb, hspoken]

end Ascii

end Naming

end RequestDocs
