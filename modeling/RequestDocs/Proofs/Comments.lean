import RequestDocs.Proofs.JsonGrammar
/-!
# JSON with comments

Texts from which comments and the commas before closing braces are taken away. Neither takes
anything from a value.
-/

namespace RequestDocs.Json

/-- Where a character stands: outside string literals, inside of one, or after a backslash there. -/
inductive Place
  | outside
  | inside
  | escaped
deriving DecidableEq

def Place.after : Place → Char → Place
  | outside, c => if c = '"' then inside else outside
  | inside, c => if c = '"' then outside else if c = '\\' then escaped else inside
  | escaped, _ => inside

mutual

/-- The text without its comments. A comment goes from two slashes outside string literals up to
the end of the line. -/
def uncomment : Place → List Char → List Char
  | _, [] => []
  | place, c :: cs =>
    if place = .outside ∧ c = '/' ∧ cs.head? = some '/' then skipComment cs
    else c :: uncomment (place.after c) cs

def skipComment : List Char → List Char
  | [] => []
  | c :: cs => if c = '\n' then c :: uncomment .outside cs else skipComment cs

end

def closes (cs : List Char) : Bool := (cs.dropWhile isSpace).head? == some '\x7d'

/-- The text without the commas outside string literals that stand before closing braces. -/
def dropCommas : Place → List Char → List Char
  | _, [] => []
  | place, c :: cs =>
    if place = .outside ∧ c = ',' ∧ closes cs then dropCommas .outside cs
    else c :: dropCommas (place.after c) cs

def strip (cs : List Char) : List Char := dropCommas .outside (uncomment .outside cs)

theorem skipComment_line {note : List Char} (h : '\n' ∉ note) (rest : List Char) :
    skipComment (note ++ '\n' :: rest) = '\n' :: uncomment .outside rest := by
  induction note with
  | nil => simp [skipComment]
  | cons c cs ih =>
    obtain ⟨hc, hcs⟩ : '\n' ≠ c ∧ '\n' ∉ cs := by simpa using h
    simp [skipComment, Ne.symm hc, ih hcs]

theorem skipComment_last {note : List Char} (h : '\n' ∉ note) : skipComment note = [] := by
  induction note with
  | nil => rfl
  | cons c cs ih =>
    obtain ⟨hc, hcs⟩ : '\n' ≠ c ∧ '\n' ∉ cs := by simpa using h
    simp [skipComment, Ne.symm hc, ih hcs]

theorem closes_append_of_spaces {a : List Char} (h : Spaces a) (cs : List Char) :
    closes (a ++ cs) = closes cs := by
  rw [closes, closes, List.dropWhile_append_of_pos h]

theorem Opens.closes {cs : List Char} (h : Opens cs) (rest : List Char) :
    closes (cs ++ rest) = false := by
  obtain ⟨c, cs, rfl, hspace, hbrace⟩ := h
  simp [Json.closes, hspace, hbrace]

/-- The pass makes the one text from the other, whatever follows. -/
def Turns (pass : List Char → List Char) (cs ds : List Char) : Prop :=
  ∀ rest, pass (cs ++ rest) = ds ++ pass rest

abbrev Keeps (pass : List Char → List Char) (cs : List Char) : Prop := Turns pass cs cs

section Passes

variable {pass : List Char → List Char}

theorem Turns.nil : Turns pass [] [] := fun _ => rfl

theorem Turns.append {cs cs' ds ds' : List Char} (h : Turns pass cs ds) (h' : Turns pass cs' ds') :
    Turns pass (cs ++ cs') (ds ++ ds') := by
  intro rest
  rw [List.append_assoc, h, h', List.append_assoc]

def IsBland (cs : List Char) : Prop := ∀ c ∈ cs, c ≠ '"' ∧ c ≠ '/' ∧ c ≠ ','

instance (cs : List Char) : Decidable (IsBland cs) := List.decidableBAll _ cs

/-- A pass that touches at most slashes and commas outside string literals, and no comma that another
value follows. -/
structure Spares (pass : List Char → List Char) : Prop where
  char : ∀ c, IsBland [c] → Keeps pass [c]
  string : ∀ body, StringBody body → Keeps pass ('"' :: body ++ ['"'])
  comma : ∀ rest, closes rest = false → pass (',' :: rest) = ',' :: pass rest

namespace Spares

variable (hpass : Spares pass)

include hpass

theorem bland {cs : List Char} (h : IsBland cs) : Keeps pass cs := by
  induction cs with
  | nil => exact .nil
  | cons c cs ih =>
    obtain ⟨hc, hcs⟩ := List.forall_mem_cons.1 h
    exact (hpass.char c (by simpa [IsBland] using hc)).append (ih hcs)

theorem spaces {cs : List Char} (h : Spaces cs) : Keeps pass cs := by
  refine hpass.bland fun c hc => ?_
  have hspace : c ∈ [' ', '\t', '\n', '\r'] := by simpa [isSpace] using h c hc
  simp only [List.mem_cons, List.not_mem_nil, or_false] at hspace
  rcases hspace with rfl | rfl | rfl | rfl <;> decide

theorem number {cs : List Char} (h : IsNumber cs) : Keeps pass cs := by
  refine hpass.bland fun c hc => ⟨?_, ?_, ?_⟩ <;>
  · rintro rfl
    exact absurd (h.chars _ hc) (by decide)

theorem comma_append {a cs : List Char} (ha : Spaces a) (hopens : Opens cs) (h : Keeps pass cs) :
    Keeps pass (',' :: a ++ cs) := by
  intro rest
  have hnext : closes (a ++ (cs ++ rest)) = false := by
    rw [closes_append_of_spaces ha, hopens.closes]
  have hrest : pass (a ++ (cs ++ rest)) = a ++ cs ++ pass rest := by
    rw [hpass.spaces ha, h, List.append_assoc]
  simp only [List.cons_append, List.append_assoc] at hrest ⊢
  rw [hpass.comma _ hnext, hrest]

theorem key {key a b : List Char} (h : StringBody key) (ha : Spaces a) (hb : Spaces b) :
    Keeps pass ('"' :: key ++ '"' :: a ++ ':' :: b) := by
  have hall := (((hpass.string key h).append (hpass.spaces ha)).append
    (hpass.char ':' (by decide))).append (hpass.spaces hb)
  simpa using hall

mutual

theorem value {cs : List Char} : IsValue cs → Keeps pass cs
  | .null => hpass.bland (by decide)
  | .true => hpass.bland (by decide)
  | .false => hpass.bland (by decide)
  | .number h => hpass.number h
  | .string h => hpass.string _ h
  | .emptyArray ha => by
    have hall := ((hpass.char '[' (by decide)).append (hpass.spaces ha)).append
      (hpass.char ']' (by decide))
    exact hall
  | .array ha hitems hb => by
    have hall := ((((hpass.char '[' (by decide)).append (hpass.spaces ha)).append
      (items hitems)).append (hpass.spaces hb)).append (hpass.char ']' (by decide))
    exact hall
  | .emptyObject ha => by
    have hall := ((hpass.char '\x7b' (by decide)).append (hpass.spaces ha)).append
      (hpass.char '\x7d' (by decide))
    exact hall
  | .object ha hmembers hb => by
    have hall := ((((hpass.char '\x7b' (by decide)).append (hpass.spaces ha)).append
      (members hmembers)).append (hpass.spaces hb)).append (hpass.char '\x7d' (by decide))
    exact hall

theorem items {cs : List Char} : IsItems cs → Keeps pass cs
  | .one h => value h
  | .more h ha hb hrest => by
    have hall := ((value h).append (hpass.spaces ha)).append
      (hpass.comma_append hb hrest.opens (items hrest))
    simpa using hall

theorem members {cs : List Char} : IsMembers cs → Keeps pass cs
  | .one hkey ha hb h => (hpass.key hkey ha hb).append (value h)
  | .more hkey ha hb h hc hd hrest => by
    have hall := (((hpass.key hkey ha hb).append (value h)).append (hpass.spaces hc)).append
      (hpass.comma_append hd hrest.opens (members hrest))
    simpa using hall

end

end Spares

end Passes

private theorem inside_string {scan : Place → List Char → List Char}
    (hstep : ∀ place c cs, place ≠ .outside → scan place (c :: cs) = c :: scan (place.after c) cs)
    {body : List Char} (h : StringBody body) (rest : List Char) :
    scan .inside (body ++ '"' :: rest) = body ++ '"' :: scan .outside rest := by
  have hinside (c : Char) (cs : List Char) : scan .inside (c :: cs) = c :: scan (Place.inside.after c) cs :=
    hstep _ _ _ (by decide)
  have hescaped (c : Char) (cs : List Char) : scan .escaped (c :: cs) = c :: scan .inside cs :=
    hstep _ _ _ (by decide)
  induction h with
  | nil => simp [hinside, Place.after]
  | char hquote hback _ _ ih => simp [hinside, Place.after, hquote, hback, ih]
  | escape _ _ ih => simp [hinside, hescaped, Place.after, ih]
  | code ha hb hc hd _ ih =>
    have hhex {x : Char} (hx : isHexDigit x) (cs : List Char) :
        scan .inside (x :: cs) = x :: scan .inside cs := by
      have hquote : x ≠ '"' := by
        rintro rfl
        exact absurd hx (by decide)
      have hback : x ≠ '\\' := by
        rintro rfl
        exact absurd hx (by decide)
      simp [hinside, Place.after, hquote, hback]
    have hslash (cs : List Char) : scan .inside ('\\' :: cs) = '\\' :: scan .escaped cs := hinside _ cs
    simp only [List.cons_append, hslash, hescaped, hhex ha, hhex hb, hhex hc, hhex hd, ih]

theorem uncomment_spares : Spares (uncomment .outside) where
  char c hc rest := by
    obtain ⟨hquote, hslash, -⟩ := hc c (by simp)
    simp [uncomment, Place.after, hslash, hquote]
  string body h rest := by
    have hstep (place : Place) (c : Char) (cs : List Char) (h : place ≠ .outside) :
        uncomment place (c :: cs) = c :: uncomment (place.after c) cs := by simp [uncomment, h]
    simp [uncomment, Place.after, inside_string hstep h]
  comma rest _ := by simp [uncomment, Place.after]

theorem dropCommas_spares : Spares (dropCommas .outside) where
  char c hc rest := by
    obtain ⟨hquote, -, hcomma⟩ := hc c (by simp)
    simp [dropCommas, Place.after, hcomma, hquote]
  string body h rest := by
    have hstep (place : Place) (c : Char) (cs : List Char) (h : place ≠ .outside) :
        dropCommas place (c :: cs) = c :: dropCommas (place.after c) cs := by simp [dropCommas, h]
    simp [dropCommas, Place.after, inside_string hstep h]
  comma rest h := by simp [dropCommas, Place.after, h]

end RequestDocs.Json
