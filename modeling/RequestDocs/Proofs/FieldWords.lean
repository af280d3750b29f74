import RequestDocs.Proofs.SanitizedTexts
/-!
# Words of field names

The words of a field name are its sanitized form cut into pieces: at underscores, which are left
out, and where the case changes, but nowhere else. The key has their letters and digits in the same
order, so that it is the sanitized name without underscores, apart from letter case.
-/

namespace RequestDocs

namespace Text

variable {ws ws' : List (List Char)} {text : List Char} {sep : Char}

/-- The text is that of some words from the start, so that one of them ends where it does. -/
def EndsAt (ws : List (List Char)) (text : List Char) : Prop :=
  ∃ read, read <+: ws ∧ read.flatten = text

theorem endsAt_nil (ws : List (List Char)) : EndsAt ws [] := ⟨[], List.nil_prefix, rfl⟩

theorem endsAt_flatten (ws ws' : List (List Char)) : EndsAt (ws ++ ws') ws.flatten :=
  ⟨ws, List.prefix_append ws ws', rfl⟩

theorem endsAt_cons_iff {w : List Char} (hne : text ≠ []) :
    EndsAt (w :: ws) text ↔ ∃ rest, text = w ++ rest ∧ EndsAt ws rest := by
  constructor
  · rintro ⟨read, hread, rfl⟩
    rcases List.prefix_cons_iff.1 hread with rfl | ⟨more, rfl, hmore⟩
    · exact absurd rfl hne
    · exact ⟨more.flatten, rfl, more, hmore, rfl⟩
  · rintro ⟨-, rfl, more, hmore, rfl⟩
    exact ⟨w :: more, List.prefix_cons_iff.2 (.inr ⟨more, rfl, hmore⟩), rfl⟩

private theorem of_prefix_append {read : List (List Char)} (h : read <+: ws ++ ws') :
    read <+: ws ∨ ∃ more, more <+: ws' ∧ read = ws ++ more := by
  rcases List.prefix_or_prefix_of_prefix h (List.prefix_append ws ws') with hread | ⟨more, rfl⟩
  · exact .inl hread
  · exact .inr ⟨more, (List.prefix_append_right_inj ws).1 h, rfl⟩

theorem endsAt_append_left (h : text <+: ws.flatten) : EndsAt (ws ++ ws') text ↔ EndsAt ws text := by
  constructor
  · rintro ⟨read, hread, rfl⟩
    rcases of_prefix_append hread with hread | ⟨more, -, rfl⟩
    · exact ⟨read, hread, rfl⟩
    · rw [List.flatten_append] at h ⊢
      have hwhole := (List.prefix_append ws.flatten more.flatten).eq_of_length_le h.length_le
      exact ⟨ws, List.prefix_rfl, hwhole⟩
  · rintro ⟨read, hread, rfl⟩
    exact ⟨read, hread.trans (List.prefix_append ws ws'), rfl⟩

theorem endsAt_append_right : EndsAt (ws ++ ws') (ws.flatten ++ text) ↔ EndsAt ws' text := by
  constructor
  · rintro ⟨read, hread, htext⟩
    rcases of_prefix_append hread with ⟨more, rfl⟩ | ⟨more, hmore, rfl⟩
    · rw [List.flatten_append, List.append_assoc, List.self_eq_append_right] at htext
      rw [(List.append_eq_nil_iff.1 htext).2]
      exact endsAt_nil ws'
    · rw [List.flatten_append, List.append_cancel_left_eq] at htext
      exact ⟨more, hmore, htext⟩
  · rintro ⟨read, hread, rfl⟩
    exact ⟨ws ++ read, (List.prefix_append_right_inj ws).2 hread, List.flatten_append⟩

private theorem endsAt_cutBefore_cons {brk : Char → Char → List Char → Bool} {b d : Char}
    {ds : List Char} (hne : text ≠ []) :
    EndsAt (cutBefore brk (b :: d :: ds)) (b :: text) ↔ EndsAt (cutBefore brk (d :: ds)) text := by
  rw [cutBefore]
  split
  · simp [endsAt_cons_iff]
  · cases hcut : cutBefore brk (d :: ds) with
    | nil => simpa [hcut] using flatten_cutBefore brk (d :: ds)
    | cons word words => simp [endsAt_cons_iff, hne]

theorem endsAt_cutBefore_iff {brk : Char → Char → List Char → Bool} {before after : List Char}
    {p c : Char} :
    EndsAt (cutBefore brk (before ++ p :: c :: after)) (before ++ [p]) ↔ brk p c after := by
  induction before with
  | nil =>
    rw [List.nil_append, List.nil_append, cutBefore]
    split
    · next hbrk => simpa [endsAt_cons_iff, hbrk] using endsAt_nil _
    · next hbrk =>
      cases hcut : cutBefore brk (c :: after) with
      | nil => simpa [hcut] using flatten_cutBefore brk (c :: after)
      | cons word words =>
        have hword : word ≠ [] := ne_nil_of_mem_cutBefore (hcut ▸ List.mem_cons_self)
        simp [endsAt_cons_iff, hbrk, hword]
  | cons b bs ih =>
    obtain ⟨d, ds, hrest⟩ := List.exists_cons_of_ne_nil (l := bs ++ p :: c :: after) (by simp)
    rw [← ih, List.cons_append, List.cons_append, hrest]
    exact endsAt_cutBefore_cons (by simp)

theorem filter_ne_eq_self (h : sep ∉ text) : text.filter (· != sep) = text := by
  refine List.filter_eq_self.2 fun c hc => ?_
  simpa using ne_of_mem_of_not_mem hc h

theorem filter_joinWith {parts : List (List Char)} (h : ∀ part ∈ parts, sep ∉ part) :
    (joinWith sep parts).filter (· != sep) = parts.flatten := by
  fun_induction joinWith sep parts with
  | case1 => rfl
  | case2 part => simp [filter_ne_eq_self (h part List.mem_cons_self)]
  | case3 part parts _ ih =>
    obtain ⟨hfirst, hrest⟩ := List.forall_mem_cons.1 h
    simp [filter_ne_eq_self hfirst, ih hrest]

theorem joinWith_eq_nil_iff {parts : List (List Char)} (h : [] ∉ parts) :
    joinWith sep parts = [] ↔ parts = [] := by
  fun_cases joinWith sep parts with
  | case1 => simp
  | case2 part => simpa [eq_comm] using h
  | case3 part parts => simp

end Text

namespace Naming

open Text

/-- A word starts with a capital: after a small letter or a digit, and also after a capital if a
small letter follows. -/
def CaseChange (p c : Char) (after : List Char) : Prop :=
  c.isUpper ∧ (p.isLower ∨ p.isDigit ∨ p.isUpper ∧ ∃ d ∈ after.head?, d.isLower)

theorem endsAt_caseWords_iff {before after : List Char} {p c : Char} :
    EndsAt (caseWords (before ++ p :: c :: after)) (before ++ [p]) ↔ CaseChange p c after := by
  rw [caseWords, endsAt_cutBefore_iff]
  cases after <;> simp [CaseChange, or_assoc]

def bare (text : List Char) : List Char := text.filter (· != '_')

theorem bare_eq_self {text : List Char} (h : '_' ∉ text) : bare text = text := filter_ne_eq_self h

theorem bare_append (as bs : List Char) : bare (as ++ bs) = bare as ++ bare bs :=
  List.filter_append as bs

theorem bare_concat_underscore (text : List Char) : bare (text ++ ['_']) = bare text := by
  rw [bare_append]
  exact List.append_nil _

theorem flatten_caseWords (chunk : List Char) : (caseWords chunk).flatten = chunk :=
  flatten_cutBefore _ chunk

private theorem endsAt_chunk_iff {before after : List Char} {p c : Char}
    (h : '_' ∉ before ++ p :: c :: after) :
    EndsAt (caseWords (before ++ p :: c :: after)) (bare (before ++ [p])) ↔
      p = '_' ∨ c = '_' ∨ CaseChange p c after := by
  simp only [List.mem_append, List.mem_cons, not_or] at h
  obtain ⟨hbefore, hp, hc, -⟩ := h
  have hread : bare (before ++ [p]) = before ++ [p] := bare_eq_self (by simp [hbefore, hp])
  rw [hread, endsAt_caseWords_iff]
  simp [Ne.symm hp, Ne.symm hc]

theorem caseChange_append_underscore {after rest : List Char} {p c : Char} :
    CaseChange p c (after ++ '_' :: rest) ↔ CaseChange p c after := by
  cases after with
  | nil => simp [CaseChange]
  | cons d ds => rfl

private theorem place_cases {chunk rest before after : List Char} {p c : Char}
    (h : chunk ++ '_' :: rest = before ++ p :: c :: after) :
    (before = chunk ∧ p = '_') ∨
    (∃ read, before = chunk ++ '_' :: read ∧ rest = read ++ p :: c :: after) ∨
    (chunk = before ++ [p] ∧ c = '_') ∨
    (∃ unread, chunk = before ++ p :: c :: unread ∧ after = unread ++ '_' :: rest) := by
  rcases List.append_eq_append_iff.1 h with ⟨read, rfl, hread⟩ | ⟨unread, rfl, hunread⟩
  · cases read with
    | nil =>
      obtain ⟨rfl, -⟩ := List.cons.inj hread
      exact .inl ⟨List.append_nil chunk, rfl⟩
    | cons d read =>
      obtain ⟨rfl, hrest⟩ := List.cons.inj hread
      exact .inr (.inl ⟨read, rfl, hrest⟩)
  · match unread, hunread with
    | [], hunread => exact .inl ⟨(List.append_nil before).symm, (List.cons.inj hunread).1⟩
    | [d], hunread =>
      obtain ⟨rfl, hrest⟩ := List.cons.inj hunread
      exact .inr (.inr (.inl ⟨rfl, (List.cons.inj hrest).1⟩))
    | d :: e :: unread, hunread =>
      obtain ⟨rfl, hrest⟩ := List.cons.inj hunread
      obtain ⟨rfl, hafter⟩ := List.cons.inj hrest
      exact .inr (.inr (.inr ⟨unread, rfl, hafter⟩))

/-- In chunks joined by underscores, words end at underscores and where the case changes. -/
theorem endsAt_words_iff {cs : List (List Char)} (hcs : ∀ chunk ∈ cs, '_' ∉ chunk)
    {before after : List Char} {p c : Char} (h : joinWith '_' cs = before ++ p :: c :: after) :
    EndsAt (cs.flatMap caseWords) (bare (before ++ [p])) ↔
      p = '_' ∨ c = '_' ∨ CaseChange p c after := by
  fun_induction joinWith '_' cs generalizing before with
  | case1 => simp at h
  | case2 chunk =>
    subst h
    rw [List.flatMap_singleton, endsAt_chunk_iff (hcs _ List.mem_cons_self)]
  | case3 chunk cs _ ih =>
    obtain ⟨hchunk, hcs⟩ := List.forall_mem_cons.1 hcs
    have hwhole : EndsAt ((chunk :: cs).flatMap caseWords) (bare chunk) := by
      have hflat := endsAt_flatten (caseWords chunk) (cs.flatMap caseWords)
      rw [bare_eq_self hchunk, List.flatMap_cons]
      rwa [flatten_caseWords] at hflat
    rcases place_cases h with ⟨rfl, rfl⟩ | ⟨read, rfl, hread⟩ | ⟨rfl, rfl⟩ | ⟨unread, rfl, rfl⟩
    · rw [bare_concat_underscore]
      exact iff_of_true hwhole (.inl rfl)
    · have hbehind : bare (chunk ++ '_' :: read ++ [p]) =
          (caseWords chunk).flatten ++ bare (read ++ [p]) := by
        rw [flatten_caseWords, List.append_assoc, bare_append, bare_eq_self hchunk]
        rfl
      rw [List.flatMap_cons, hbehind, endsAt_append_right]
      exact ih hcs hread
    · exact iff_of_true hwhole (.inr (.inl rfl))
    · have hread : before ++ [p] <+: before ++ p :: c :: unread := ⟨c :: unread, by simp⟩
      have hinside : bare (before ++ [p]) <+: (caseWords (before ++ p :: c :: unread)).flatten := by
        rwa [flatten_caseWords, bare_eq_self fun hmem => hchunk (hread.subset hmem)]
      rw [List.flatMap_cons, endsAt_append_left hinside, endsAt_chunk_iff hchunk,
        caseChange_append_underscore]

theorem lowercase_camelCase {ws : List (List Char)} (h : ∀ word ∈ ws, ∀ c ∈ word, c.isAlphanum) :
    lowercase (camelCase ws) = lowercase ws.flatten := by
  cases ws with
  | nil => rfl
  | cons word ws =>
    obtain ⟨hword, hws⟩ := List.forall_mem_cons.1 h
    rw [camelCase, lowercase_append, lowercase_lowercase hword, lowercase_flatMap_recased hws,
      List.flatten_cons, lowercase_append]

theorem not_isUpper_head_camelCase {ws : List (List Char)}
    (h : ∀ word ∈ ws, word ≠ [] ∧ ∀ c ∈ word, c.isAlphanum) :
    ∀ c ∈ (camelCase ws).head?, ¬c.isUpper := by
  cases ws with
  | nil => exact nofun
  | cons word ws =>
    intro c hc
    obtain ⟨hne, hsmall⟩ := small_map_lowercase h (lowercase word) List.mem_cons_self
    have hmem : c ∈ lowercase word := by
      rw [camelCase, List.head?_append_of_ne_nil _ hne] at hc
      exact List.mem_of_mem_head? hc
    simpa using not_isUpper_of_small (hsmall c hmem)

theorem flatten_words_eq_bare [Spelling] (s : String) :
    (words s).flatten = bare (sanitize s).toList := by
  rw [sanitize, String.toList_ofList, bare, filter_joinWith fun _ => underscore_not_mem_chunk]
  exact flatten_flatMap_cutBefore _ (chunks s)

theorem words_eq_nil_iff [Spelling] {s : String} : words s = [] ↔ sanitize s = "" := by
  have hchunks : sanitize s = "" ↔ chunks s = [] := by
    rw [sanitize, ← String.toList_inj, String.toList_ofList]
    exact joinWith_eq_nil_iff nil_not_mem_partsBetween
  rw [hchunks]
  constructor
  · intro hnil
    have hflat : (words s).flatten = (chunks s).flatten := flatten_flatMap_cutBefore _ _
    rw [hnil] at hflat
    refine List.eq_nil_iff_forall_not_mem.2 fun chunk hchunk => ?_
    have hempty := List.flatten_eq_nil_iff.1 hflat.symm chunk hchunk
    exact nil_not_mem_partsBetween (hempty ▸ hchunk)
  · intro hnil
    rw [words, hnil]
    rfl

/-- A name of which nothing is left is its own key. Otherwise its words are the sanitized name
without its underscores, no letter more or less and in the same order; none of them is empty; and one
ends at each underscore and each change of case, and nowhere else. The key then consists of letters
and digits of ASCII, does not start with a capital, and is the sanitized name without underscores up
to case. -/
theorem fieldName_spells [Spelling] (s : String) :
    (sanitize s = "" → fieldName s = s) ∧
    (sanitize s ≠ "" →
      (words s).flatten = bare (sanitize s).toList ∧ (∀ word ∈ words s, word ≠ []) ∧
      (∀ before p c after, (sanitize s).toList = before ++ p :: c :: after →
        (EndsAt (words s) (bare (before ++ [p])) ↔ p = '_' ∨ c = '_' ∨ CaseChange p c after)) ∧
      IsIdentifier (fieldName s) ∧ (∀ c ∈ (fieldName s).toList.head?, ¬c.isUpper) ∧
      lowercase (fieldName s).toList = lowercase (bare (sanitize s).toList)) := by
  refine ⟨fun hempty => fieldName_of_no_words (words_eq_nil_iff.2 hempty), fun hne => ?_⟩
  have halphanum : ∀ word ∈ words s, word ≠ [] ∧ ∀ c ∈ word, c.isAlphanum :=
    fun _ => alphanumeric_of_mem_words
  rw [fieldName_of_words (mt words_eq_nil_iff.1 hne), IsIdentifier, String.toList_ofList]
  refine ⟨flatten_words_eq_bare s, fun word hword => (halphanum word hword).1, ?_, ?_, ?_, ?_⟩
  · intro before p c after hplace
    rw [sanitize, String.toList_ofList] at hplace
    exact endsAt_words_iff (fun _ => underscore_not_mem_chunk) hplace
  · exact alphanumeric_camelCase fun word hword => (halphanum word hword).2
  · exact not_isUpper_head_camelCase halphanum
  · rw [lowercase_camelCase fun word hword => (halphanum word hword).2, flatten_words_eq_bare]

attribute [local instance] Spelling.plain

theorem statusOf_spells :
    let name := "HTTPStatus_of-pet2ID"
    sanitize name = "HTTPStatus_of_pet2ID" ∧ sanitize "$" = "" ∧
      fieldName "$" = "$" ∧ fieldName name = "httpStatusOfPet2Id" ∧
      (words name).flatten = "HTTPStatusofpet2ID".toList ∧
      EndsAt (words name) "HTTP".toList ∧ ¬EndsAt (words name) "HTT".toList ∧
      IsIdentifier "httpStatusOfPet2Id" := by
  intro name
  have hname : sanitize name = "HTTPStatus_of_pet2ID" := by decide +kernel
  have hsymbol : sanitize "$" = "" := by decide +kernel
  have hkey : fieldName name = "httpStatusOfPet2Id" := by decide +kernel
  obtain ⟨hkept, -⟩ := fieldName_spells "$"
  obtain ⟨-, hspells⟩ := fieldName_spells name
  obtain ⟨hflat, -, hends, hidentifier, -⟩ := hspells (by rw [hname]; decide)
  rw [hname] at hflat hends
  refine ⟨hname, hsymbol, hkept hsymbol, hkey, hflat.trans (by decide), ?_, ?_, hkey ▸ hidentifier⟩
  · have hcapital : CaseChange 'P' 'S' "tatus_of_pet2ID".toList := ⟨by decide, by simp⟩
    exact (hends "HTT".toList 'P' 'S' "tatus_of_pet2ID".toList (by decide)).2 (.inr (.inr hcapital))
  · have hinside := hends "HT".toList 'T' 'P' "Status_of_pet2ID".toList (by decide)
    intro h
    rcases hinside.1 h with hp | hc | ⟨-, hcases⟩
    · exact absurd hp (by decide)
    · exact absurd hc (by decide)
    · simp at hcases

end Naming

end RequestDocs
