/-!
# Splitting text

The parts of a text between separators, and the words of a text that is cut where two neighbours
disagree.
-/

namespace RequestDocs.Text

/-- The parts between the characters that satisfy `p`; always at least one. -/
def splitWhere (p : Char → Bool) : List Char → List (List Char)
  | [] => [[]]
  | c :: cs =>
    if p c then [] :: splitWhere p cs
    else match splitWhere p cs with
      | [] => [[c]]
      | part :: parts => (c :: part) :: parts

def splitOn (sep : Char) : List Char → List (List Char) := splitWhere (· == sep)

def split (sep : Char) (s : String) : List String := (splitOn sep s.toList).map String.ofList

/-- The part of a text before the first occurrence of `sep`. -/
def before (sep : Char) (s : String) : String := String.ofList (s.toList.takeWhile (· != sep))

def joinWith (sep : Char) : List (List Char) → List Char
  | [] => []
  | [part] => part
  | part :: parts => part ++ sep :: joinWith sep parts

/-- A text cut before every character that `brk` accepts, given its left neighbour and what
follows it. -/
def cutBefore (brk : Char → Char → List Char → Bool) : List Char → List (List Char)
  | [] => []
  | [c] => [[c]]
  | p :: c :: cs =>
    if brk p c cs then [p] :: cutBefore brk (c :: cs)
    else match cutBefore brk (c :: cs) with
      | [] => [[p]]
      | word :: words => (p :: word) :: words

theorem splitWhere_ne_nil (p : Char → Bool) (cs : List Char) : splitWhere p cs ≠ [] := by
  cases cs with
  | nil => simp [splitWhere]
  | cons c cs =>
    unfold splitWhere
    split
    · simp
    · split <;> simp

theorem joinWith_splitOn (sep : Char) (cs : List Char) : joinWith sep (splitOn sep cs) = cs := by
  induction cs with
  | nil => rfl
  | cons c cs ih =>
    unfold splitOn splitWhere
    unfold splitOn at ih
    cases hs : splitWhere (· == sep) cs with
    | nil => exact absurd hs (splitWhere_ne_nil _ cs)
    | cons part parts =>
      rw [hs] at ih
      split
      · next h => simp only [beq_iff_eq] at h; simp [joinWith, ih, h]
      · cases parts with
        | nil => simpa [joinWith] using ih
        | cons q qs => simpa [joinWith] using ih

theorem flatten_cutBefore (brk : Char → Char → List Char → Bool) (cs : List Char) :
    (cutBefore brk cs).flatten = cs := by
  fun_induction cutBefore brk cs with
  | case1 => rfl
  | case2 => rfl
  | case3 p c cs _ ih => simpa using ih
  | case4 p c cs _ hnil ih => simp [hnil] at ih
  | case5 p c cs _ word words hw ih => simpa [hw] using ih

theorem splitWhere_append_cons {p : Char → Bool} {c : Char} (hc : p c = true) (as bs : List Char) :
    splitWhere p (as ++ c :: bs) = splitWhere p as ++ splitWhere p bs := by
  induction as with
  | nil => simp [splitWhere, hc]
  | cons a as ih =>
    rw [List.cons_append]
    simp only [splitWhere]
    split
    · rw [ih, List.cons_append]
    · rw [ih]
      cases hs : splitWhere p as with
      | nil => exact absurd hs (splitWhere_ne_nil p as)
      | cons part parts => rfl

theorem splitWhere_eq_singleton {p : Char → Bool} {as : List Char} (h : ∀ c ∈ as, p c = false) :
    splitWhere p as = [as] := by
  induction as with
  | nil => rfl
  | cons a as ih =>
    obtain ⟨ha, has⟩ := List.forall_mem_cons.1 h
    simp [splitWhere, ha, ih has]

theorem of_mem_splitWhere {p : Char → Bool} {cs part : List Char} (h : part ∈ splitWhere p cs)
    {c : Char} (hc : c ∈ part) : p c = false := by
  induction cs generalizing part with
  | nil =>
    obtain rfl : part = [] := by simpa [splitWhere] using h
    cases hc
  | cons d ds ih =>
    unfold splitWhere at h
    split at h
    · rcases List.mem_cons.1 h with rfl | h
      · cases hc
      · exact ih h hc
    · next hd =>
      split at h
      · next hnil => exact absurd hnil (splitWhere_ne_nil p ds)
      · next first rest hfirst =>
        rcases List.mem_cons.1 h with rfl | h
        · rcases List.mem_cons.1 hc with rfl | hc
          · simpa using hd
          · exact ih (hfirst ▸ List.mem_cons_self) hc
        · exact ih (hfirst ▸ List.mem_cons_of_mem first h) hc

theorem splitOn_joinWith {sep : Char} {parts : List (List Char)} (hne : parts ≠ [])
    (h : ∀ part ∈ parts, sep ∉ part) : splitOn sep (joinWith sep parts) = parts := by
  have hpart {part : List Char} (hsep : sep ∉ part) : splitOn sep part = [part] := by
    refine splitWhere_eq_singleton fun c hc => beq_eq_false_iff_ne.2 ?_
    rintro rfl
    exact hsep hc
  fun_induction joinWith sep parts with
  | case1 => exact absurd rfl hne
  | case2 part => exact hpart (h part List.mem_cons_self)
  | case3 part parts hparts ih =>
    obtain ⟨hfirst, hrest⟩ := List.forall_mem_cons.1 h
    have hsplit : splitOn sep (part ++ sep :: joinWith sep parts) =
        splitOn sep part ++ splitOn sep (joinWith sep parts) :=
      splitWhere_append_cons (p := (· == sep)) (beq_self_eq_true sep) part _
    rw [hsplit, hpart hfirst, ih hparts hrest]
    rfl

theorem mem_of_mem_cutBefore {brk : Char → Char → List Char → Bool} {cs word : List Char}
    (h : word ∈ cutBefore brk cs) {c : Char} (hc : c ∈ word) : c ∈ cs := by
  rw [← flatten_cutBefore brk cs]
  exact List.mem_flatten_of_mem h hc

theorem ne_nil_of_mem_cutBefore {brk : Char → Char → List Char → Bool} {cs word : List Char}
    (h : word ∈ cutBefore brk cs) : word ≠ [] := by
  fun_induction cutBefore brk cs with
  | case1 => cases h
  | case2 c =>
    rw [List.mem_singleton.1 h]
    exact List.cons_ne_nil c []
  | case3 p c cs _ ih =>
    rcases List.mem_cons.1 h with rfl | h
    · exact List.cons_ne_nil p []
    · exact ih h
  | case4 p c cs =>
    rw [List.mem_singleton.1 h]
    exact List.cons_ne_nil p []
  | case5 p c cs _ first rest hrest ih =>
    rcases List.mem_cons.1 h with rfl | h
    · exact List.cons_ne_nil p first
    · exact ih (hrest ▸ List.mem_cons_of_mem first h)

theorem flatten_flatMap_cutBefore (brk : Char → Char → List Char → Bool)
    (parts : List (List Char)) : (parts.flatMap (cutBefore brk)).flatten = parts.flatten := by
  induction parts with
  | nil => rfl
  | cons part parts ih =>
    rw [List.flatMap_cons, List.flatten_append, flatten_cutBefore, ih, List.flatten_cons]

end RequestDocs.Text
