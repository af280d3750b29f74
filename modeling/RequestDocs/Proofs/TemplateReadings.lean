import RequestDocs.PathTemplate.Basic
/-!
# Readings of paths

A path is read in one way as texts and tokens. Its parameters and the text with references in place
of its tokens, which are found apart, are both made from that reading, and the text tells which path
it was made from.
-/

namespace RequestDocs

theorem append_cons_cancel {α : Type} {c : α} {as as' bs bs' : List α} (h : c ∉ as)
    (h' : c ∉ as') (heq : as ++ c :: bs = as' ++ c :: bs') : as = as' ∧ bs = bs' := by
  induction as generalizing as' with
  | nil =>
    cases as' with
    | nil => simpa using heq
    | cons a' as' =>
      rw [List.nil_append, List.cons_append, List.cons.injEq] at heq
      exact absurd (heq.1 ▸ List.mem_cons_self) h'
  | cons a as ih =>
    cases as' with
    | nil =>
      rw [List.nil_append, List.cons_append, List.cons.injEq] at heq
      exact absurd (heq.1 ▸ List.mem_cons_self) h
    | cons a' as' =>
      rw [List.cons_append, List.cons_append, List.cons.injEq] at heq
      obtain ⟨rfl, hrest⟩ := heq
      obtain ⟨rfl, rfl⟩ := ih (List.not_mem_of_not_mem_cons h) (List.not_mem_of_not_mem_cons h') hrest
      exact ⟨rfl, rfl⟩

/-- A path as texts, each followed by a token, and a tail without tokens. -/
structure PathTemplate where
  tokens : List (List Char × List Char)
  tail : List Char
deriving DecidableEq

namespace PathTemplate

def render (write : List Char → List Char) (t : PathTemplate) : List Char :=
  t.tokens.flatMap (fun token => token.1 ++ write token.2) ++ t.tail

/-- A token starts at the first opening brace and ends at the first closing one, so that no token is
left in the tail. -/
structure Canonical (t : PathTemplate) : Prop where
  texts : ∀ token ∈ t.tokens, '{' ∉ token.1
  names : ∀ token ∈ t.tokens, '}' ∉ token.2
  tail : ∀ before after, t.tail = before ++ '{' :: after → '}' ∉ after

structure IsReading (t : PathTemplate) (path : List Char) : Prop where
  written : t.render inBraces = path
  canonical : t.Canonical

/-- The template of what follows `text`, inside the token `name` if there is one. -/
def scanFrom (text : List Char) : (name : Option (List Char)) → List Char → PathTemplate
  | none, [] => ⟨[], text⟩
  | some name, [] => ⟨[], text ++ '{' :: name⟩
  | none, c :: cs =>
    if c = '{' then scanFrom text (some []) cs else scanFrom (text ++ [c]) none cs
  | some name, c :: cs =>
    if c = '}' then
      let rest := scanFrom [] none cs
      ⟨(text, name) :: rest.tokens, rest.tail⟩
    else scanFrom text (some (name ++ [c])) cs

def scan (path : List Char) : PathTemplate := scanFrom [] none path

variable {t t' : PathTemplate} {write : List Char → List Char}

theorem render_cons (write : List Char → List Char) (text name : List Char)
    (tokens : List (List Char × List Char)) (tail : List Char) :
    render write ⟨(text, name) :: tokens, tail⟩ =
      text ++ (write name ++ render write ⟨tokens, tail⟩) := by
  simp [render]

theorem render_inBraces_scanFrom (text : List Char) (name : Option (List Char)) (cs : List Char) :
    (scanFrom text name cs).render inBraces =
      text ++ ((name.map ('{' :: ·)).getD [] ++ cs) := by
  induction cs generalizing text name with
  | nil => cases name <;> simp [scanFrom, render]
  | cons c cs ih =>
    cases name with
    | none =>
      unfold scanFrom
      split
      · next hc => simp [hc, ih]
      · simp [ih]
    | some name =>
      unfold scanFrom
      split
      · next hc => simp [render_cons, ih, inBraces, hc]
      · simp [ih]

theorem render_inBraces_scan (path : List Char) : (scan path).render inBraces = path := by
  simpa [scan] using render_inBraces_scanFrom [] none path

theorem paramsFrom_eq (text : List Char) (name : Option (List Char)) (cs : List Char) :
    paramsFrom name cs = ((scanFrom text name cs).tokens.map (·.2)).filter (· ≠ []) := by
  induction cs generalizing text name with
  | nil => cases name <;> rfl
  | cons c cs ih =>
    cases name with
    | none =>
      unfold paramsFrom scanFrom
      split
      · exact ih text _
      · exact ih _ none
    | some name =>
      unfold paramsFrom scanFrom
      split
      · simp only [ih [] none, List.map_cons, List.filter_cons]
        cases name <;> rfl
      · exact ih text _

theorem append_substituteFrom (text : List Char) (name : Option (List Char)) (cs : List Char) :
    text ++ substituteFrom name cs = (scanFrom text name cs).render asVariable := by
  induction cs generalizing text name with
  | nil => cases name <;> simp [scanFrom, render, substituteFrom]
  | cons c cs ih =>
    cases name with
    | none =>
      unfold substituteFrom scanFrom
      split
      · exact ih text _
      · rw [← ih, List.append_assoc, List.singleton_append]
    | some name =>
      unfold substituteFrom scanFrom
      split
      · rw [render_cons, ← ih [] none, List.nil_append]
      · exact ih text _

private theorem Canonical.cons {text name : List Char} (htext : '{' ∉ text) (hname : '}' ∉ name)
    (h : t.Canonical) : Canonical ⟨(text, name) :: t.tokens, t.tail⟩ where
  texts := List.forall_mem_cons.2 ⟨htext, h.texts⟩
  names := List.forall_mem_cons.2 ⟨hname, h.names⟩
  tail := h.tail

private theorem canonical_text {text : List Char} (htext : '{' ∉ text) : Canonical ⟨[], text⟩ where
  texts := by simp
  names := by simp
  tail := by
    rintro before after rfl
    simp at htext

private theorem canonical_unclosed {text name : List Char} (htext : '{' ∉ text) (hname : '}' ∉ name) :
    Canonical ⟨[], text ++ '{' :: name⟩ where
  texts := by simp
  names := by simp
  tail := by
    intro before after heq hclose
    rcases List.append_eq_append_iff.1 heq with ⟨between, rfl, hrest⟩ | ⟨between, rfl, hrest⟩
    · cases between with
      | nil =>
        cases hrest
        exact hname hclose
      | cons c cs =>
        rw [List.cons_append, List.cons.injEq] at hrest
        exact hname (hrest.2 ▸ List.mem_append_right _ (List.mem_cons_of_mem _ hclose))
    · -- The brace after `before` is the one after `text`, which has none of its own.
      cases between with
      | nil =>
        cases hrest
        exact hname hclose
      | cons c cs =>
        rw [List.cons_append, List.cons.injEq] at hrest
        simp [← hrest.1] at htext

private theorem canonical_scanFrom {text : List Char} {name : Option (List Char)}
    (htext : '{' ∉ text) (hname : ∀ cs ∈ name, '}' ∉ cs) (cs : List Char) :
    (scanFrom text name cs).Canonical := by
  induction cs generalizing text name with
  | nil =>
    cases name with
    | none => exact canonical_text htext
    | some name => exact canonical_unclosed htext (hname name rfl)
  | cons c cs ih =>
    cases name with
    | none =>
      unfold scanFrom
      split
      · exact ih htext (by simp)
      · next hc => exact ih (by simp [htext, Ne.symm hc]) (by simp)
    | some name =>
      unfold scanFrom
      split
      · exact (ih (by simp) (by simp)).cons htext (hname name rfl)
      · next hc =>
        have hnone := hname name rfl
        exact ih htext (by simp [hnone, Ne.symm hc])

theorem isReading_scan (path : List Char) : (scan path).IsReading path where
  written := render_inBraces_scan path
  canonical := canonical_scanFrom (by simp) (by simp) path

/-- Tokens can be found in a text: a token is written from an opening brace to a closing one, and
where it ends is seen from what is written. -/
structure Discernible (write : List Char → List Char) : Prop where
  braced : ∀ name, ∃ cs, write name = '{' :: cs ∧ '}' ∈ cs
  delimited : ∀ {name name' rest rest' : List Char}, '}' ∉ name → '}' ∉ name' →
    write name ++ rest = write name' ++ rest' → name = name' ∧ rest = rest'

theorem discernible_inBraces : Discernible inBraces where
  braced name := ⟨name ++ ['}'], rfl, by simp⟩
  delimited {name name' rest rest'} hname hname' heq := by
    simp only [inBraces, List.cons_append, List.append_assoc, List.cons.injEq, true_and,
      List.nil_append] at heq
    exact append_cons_cancel hname hname' heq

theorem discernible_asVariable : Discernible asVariable where
  braced name := by
    unfold asVariable
    split
    · exact discernible_inBraces.braced name
    · exact discernible_inBraces.braced (inBraces name)
  delimited {name name' rest rest'} hname hname' heq := by
    -- The second character tells whether a token is empty: it closes the token or opens the reference.
    cases name with
    | nil =>
      cases name' with
      | nil => simpa [asVariable, inBraces] using heq
      | cons c cs => simp [asVariable, inBraces] at heq
    | cons c cs =>
      cases name' with
      | nil => simp [asVariable, inBraces] at heq
      | cons d ds =>
        have hbraces : (c :: cs) ++ '}' :: ('}' :: rest) = (d :: ds) ++ '}' :: ('}' :: rest') := by
          simpa [asVariable, inBraces] using heq
        obtain ⟨hsame, hrest⟩ := append_cons_cancel hname hname' hbraces
        exact ⟨hsame, (List.cons.inj hrest).2⟩

private theorem Discernible.tail_ne (hwrite : Discernible write) (h : t.Canonical)
    (text name rest : List Char) : t.tail ≠ text ++ (write name ++ rest) := by
  obtain ⟨cs, hcs, hclose⟩ := hwrite.braced name
  intro heq
  rw [hcs, List.cons_append] at heq
  exact h.tail _ _ heq (List.mem_append_left _ hclose)

theorem Canonical.eq_of_render (hwrite : Discernible write) (h : t.Canonical) (h' : t'.Canonical)
    (heq : t.render write = t'.render write) : t = t' := by
  obtain ⟨tokens, tail⟩ := t
  obtain ⟨tokens', tail'⟩ := t'
  induction tokens generalizing tokens' with
  | nil =>
    cases tokens' with
    | nil =>
      have htail : tail = tail' := by simpa [render] using heq
      rw [htail]
    | cons token' tokens' =>
      rw [render_cons] at heq
      exact absurd heq (hwrite.tail_ne h _ _ _)
  | cons token tokens ih =>
    cases tokens' with
    | nil =>
      rw [render_cons] at heq
      exact absurd heq.symm (hwrite.tail_ne h' _ _ _)
    | cons token' tokens' =>
      obtain ⟨text, name⟩ := token
      obtain ⟨text', name'⟩ := token'
      obtain ⟨htext, htexts⟩ := List.forall_mem_cons.1 h.texts
      obtain ⟨htext', htexts'⟩ := List.forall_mem_cons.1 h'.texts
      obtain ⟨hname, hnames⟩ := List.forall_mem_cons.1 h.names
      obtain ⟨hname', hnames'⟩ := List.forall_mem_cons.1 h'.names
      obtain ⟨cs, hcs, -⟩ := hwrite.braced name
      obtain ⟨cs', hcs', -⟩ := hwrite.braced name'
      rw [render_cons, render_cons] at heq
      -- Both texts end at the first opening brace.
      have hbraces := heq
      rw [hcs, hcs', List.cons_append, List.cons_append] at hbraces
      obtain ⟨rfl, -⟩ := append_cons_cancel htext htext' hbraces
      obtain ⟨rfl, hrest⟩ := hwrite.delimited hname hname' (List.append_cancel_left heq)
      cases ih ⟨htexts, hnames, h.tail⟩ tokens' ⟨htexts', hnames', h'.tail⟩ hrest
      rfl

theorem isReading_iff {path : List Char} : t.IsReading path ↔ t = scan path := by
  constructor
  · intro h
    exact h.canonical.eq_of_render discernible_inBraces (isReading_scan path).canonical
      (h.written.trans (render_inBraces_scan path).symm)
  · rintro rfl
    exact isReading_scan path

end PathTemplate

open PathTemplate

theorem substituteVariables_eq (path : String) :
    substituteVariables path = String.ofList ((scan path.toList).render asVariable) := by
  rw [scan, ← append_substituteFrom, List.nil_append]
  rfl

/-- A path has one reading. Its parameters are the names of the tokens that are not empty, and with
references each of these is in braces twice and all else stays as it is. Different paths never come
to the same text. -/
theorem templateParams_substituteVariables_read :
    (∀ path, ∃ t : PathTemplate, (∀ t', t'.IsReading path.toList ↔ t' = t) ∧
      templateParams path = ((t.tokens.map (·.2)).filter (· ≠ [])).map String.ofList ∧
      substituteVariables path = String.ofList (t.render fun name =>
        if name = [] then inBraces name else inBraces (inBraces name))) ∧
    Function.Injective substituteVariables := by
  constructor
  · intro path
    refine ⟨scan path.toList, fun t' => isReading_iff, ?_, ?_⟩
    · rw [templateParams, paramsFrom_eq []]
      rfl
    · have hwritten : asVariable = fun name =>
          if name = [] then inBraces name else inBraces (inBraces name) := by
        funext name
        simp only [asVariable, List.isEmpty_iff]
      rw [substituteVariables_eq, hwritten]
  · intro path path' heq
    rw [substituteVariables_eq, substituteVariables_eq] at heq
    have htexts := String.ofList_injective heq
    have hsame := (isReading_scan _).canonical.eq_of_render discernible_asVariable
      (isReading_scan _).canonical htexts
    have hpaths := congrArg (render inBraces) hsame
    rw [render_inBraces_scan, render_inBraces_scan] at hpaths
    exact String.toList_inj.1 hpaths

end RequestDocs
