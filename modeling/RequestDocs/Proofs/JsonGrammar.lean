import Mathlib.Data.List.Basic
import RequestDocs.Json.Printer
/-!
# The grammar of JSON

The texts that are JSON values, by the grammar of RFC 8259.
-/

namespace RequestDocs.Json

def isSpace (c : Char) : Bool := [' ', '\t', '\n', '\r'].contains c

def Spaces (cs : List Char) : Prop := ∀ c ∈ cs, isSpace c

def Digits (cs : List Char) : Prop := cs ≠ [] ∧ ∀ c ∈ cs, c.isDigit

inductive Whole : List Char → Prop
  | zero : Whole ['0']
  | digits {c : Char} {cs : List Char} : c.isDigit → c ≠ '0' → (∀ d ∈ cs, d.isDigit) → Whole (c :: cs)

inductive Fraction : List Char → Prop
  | none : Fraction []
  | point {cs : List Char} : Digits cs → Fraction ('.' :: cs)

inductive Exponent : List Char → Prop
  | none : Exponent []
  | plain {e : Char} {cs : List Char} : e ∈ ['e', 'E'] → Digits cs → Exponent (e :: cs)
  | signed {e sign : Char} {cs : List Char} : e ∈ ['e', 'E'] → sign ∈ ['+', '-'] → Digits cs →
      Exponent (e :: sign :: cs)

inductive IsNumber : List Char → Prop
  | intro {sign whole fraction exponent : List Char} : sign = [] ∨ sign = ['-'] → Whole whole →
      Fraction fraction → Exponent exponent → IsNumber (sign ++ whole ++ fraction ++ exponent)

def isHexDigit (c : Char) : Bool := "0123456789abcdefABCDEF".toList.contains c

inductive StringBody : List Char → Prop
  | nil : StringBody []
  | char {c : Char} {cs : List Char} : c ≠ '"' → c ≠ '\\' → 0x20 ≤ c.toNat → StringBody cs →
      StringBody (c :: cs)
  | escape {c : Char} {cs : List Char} : c ∈ ['"', '\\', '/', 'b', 'f', 'n', 'r', 't'] →
      StringBody cs → StringBody ('\\' :: c :: cs)
  | code {a b c d : Char} {cs : List Char} : isHexDigit a → isHexDigit b → isHexDigit c →
      isHexDigit d → StringBody cs → StringBody ('\\' :: 'u' :: a :: b :: c :: d :: cs)

mutual

/-- A value without spaces around it. -/
inductive IsValue : List Char → Prop
  | null : IsValue "null".toList
  | true : IsValue "true".toList
  | false : IsValue "false".toList
  | number {cs : List Char} : IsNumber cs → IsValue cs
  | string {body : List Char} : StringBody body → IsValue ('"' :: body ++ ['"'])
  | emptyArray {a : List Char} : Spaces a → IsValue ('[' :: a ++ [']'])
  | array {a items b : List Char} : Spaces a → IsItems items → Spaces b →
      IsValue ('[' :: a ++ items ++ b ++ [']'])
  | emptyObject {a : List Char} : Spaces a → IsValue ('\x7b' :: a ++ ['\x7d'])
  | object {a members b : List Char} : Spaces a → IsMembers members → Spaces b →
      IsValue ('\x7b' :: a ++ members ++ b ++ ['\x7d'])

inductive IsItems : List Char → Prop
  | one {cs : List Char} : IsValue cs → IsItems cs
  | more {cs a b rest : List Char} : IsValue cs → Spaces a → Spaces b → IsItems rest →
      IsItems (cs ++ a ++ ',' :: b ++ rest)

inductive IsMembers : List Char → Prop
  | one {key a b cs : List Char} : StringBody key → Spaces a → Spaces b → IsValue cs →
      IsMembers ('"' :: key ++ '"' :: a ++ ':' :: b ++ cs)
  | more {key a b cs c d rest : List Char} : StringBody key → Spaces a → Spaces b → IsValue cs →
      Spaces c → Spaces d → IsMembers rest →
      IsMembers ('"' :: key ++ '"' :: a ++ ':' :: b ++ cs ++ c ++ ',' :: d ++ rest)

end

/-- A value with spaces around it. -/
def IsText (cs : List Char) : Prop := ∃ a value b, Spaces a ∧ IsValue value ∧ Spaces b ∧ cs = a ++ value ++ b

theorem Spaces.nil : Spaces [] := by simp [Spaces]

theorem Spaces.append {a b : List Char} (ha : Spaces a) (hb : Spaces b) : Spaces (a ++ b) := by
  intro c hc
  exact (List.mem_append.1 hc).elim (ha c) (hb c)

theorem StringBody.append {cs ds : List Char} (h : StringBody cs) (h' : StringBody ds) :
    StringBody (cs ++ ds) := by
  induction h with
  | nil => exact h'
  | char hquote hback hlow _ ih => exact .char hquote hback hlow ih
  | escape hc _ ih => exact .escape hc ih
  | code ha hb hc hd _ ih => exact .code ha hb hc hd ih

def isNumberChar (c : Char) : Bool := c.isDigit || ['-', '+', '.', 'e', 'E'].contains c

theorem Whole.isDigits {cs : List Char} (h : Whole cs) : Digits cs := by
  cases h with
  | zero => exact ⟨by simp, by simp⟩
  | digits hc _ hcs => exact ⟨by simp, List.forall_mem_cons.2 ⟨hc, hcs⟩⟩

theorem IsNumber.chars {cs : List Char} (h : IsNumber cs) : ∀ c ∈ cs, isNumberChar c := by
  have hdigits {ds : List Char} (hds : ∀ c ∈ ds, c.isDigit) : ∀ c ∈ ds, isNumberChar c := by
    intro c hc
    simp [isNumberChar, hds c hc]
  obtain ⟨hsign, hwhole, hfraction, hexponent⟩ := h
  simp only [List.forall_mem_append]
  refine ⟨⟨⟨?_, ?_⟩, ?_⟩, ?_⟩
  · rcases hsign with rfl | rfl
    · simp
    · simp [isNumberChar]
  · exact hdigits hwhole.isDigits.2
  · cases hfraction with
    | none => simp
    | point hds => exact List.forall_mem_cons.2 ⟨by decide, hdigits hds.2⟩
  · have hmark {e : Char} (he : e ∈ ['e', 'E']) : isNumberChar e := by
      simp only [List.mem_cons, List.not_mem_nil, or_false] at he
      rcases he with rfl | rfl <;> decide
    cases hexponent with
    | none => simp
    | plain he hds => exact List.forall_mem_cons.2 ⟨hmark he, hdigits hds.2⟩
    | signed he hs hds =>
      refine List.forall_mem_cons.2 ⟨hmark he, List.forall_mem_cons.2 ⟨?_, hdigits hds.2⟩⟩
      simp only [List.mem_cons, List.not_mem_nil, or_false] at hs
      rcases hs with rfl | rfl <;> decide

theorem IsNumber.ne_nil {cs : List Char} (h : IsNumber cs) : cs ≠ [] := by
  obtain ⟨-, hwhole, -, -⟩ := h
  have hne := hwhole.isDigits.1
  simp [hne]

def Opens (cs : List Char) : Prop := ∃ c rest, cs = c :: rest ∧ isSpace c = false ∧ c ≠ '\x7d'

theorem Opens.append {cs : List Char} (h : Opens cs) (ds : List Char) : Opens (cs ++ ds) := by
  obtain ⟨c, rest, rfl, hc⟩ := h
  exact ⟨c, rest ++ ds, rfl, hc⟩

theorem IsValue.opens {cs : List Char} (h : IsValue cs) : Opens cs := by
  cases h with
  | null | true | false => exact ⟨_, _, rfl, by decide, by decide⟩
  | number hnumber =>
    obtain ⟨c, rest, rfl⟩ := List.exists_cons_of_ne_nil hnumber.ne_nil
    have hc := hnumber.chars c List.mem_cons_self
    refine ⟨c, rest, rfl, ?_, ?_⟩
    · by_contra hspace
      have hmem : c ∈ [' ', '\t', '\n', '\r'] := by
        simpa only [isSpace, Bool.not_eq_false, List.contains_iff_mem] using hspace
      simp only [List.mem_cons, List.not_mem_nil, or_false] at hmem
      rcases hmem with rfl | rfl | rfl | rfl <;> exact absurd hc (by decide)
    · rintro rfl
      exact absurd hc (by decide)
  | string | emptyArray | array | emptyObject | object => exact ⟨_, _, rfl, by decide, by decide⟩

theorem IsItems.opens {cs : List Char} (h : IsItems cs) : Opens cs := by
  cases h with
  | one hvalue => exact hvalue.opens
  | more hvalue =>
    rw [List.append_assoc, List.append_assoc]
    exact hvalue.opens.append _

theorem IsMembers.opens {cs : List Char} (h : IsMembers cs) : Opens cs := by
  cases h with
  | one | more => exact ⟨_, _, rfl, by decide, by decide⟩

theorem IsNumber.last {cs : List Char} (h : IsNumber cs) {c : Char} (hc : cs.getLast? = some c) :
    c.isDigit := by
  obtain ⟨hsign, hwhole, hfraction, hexponent⟩ := h
  have hdigits {ds : List Char} (hds : Digits ds) : ∃ d, ds.getLast? = some d ∧ d.isDigit := by
    refine ⟨ds.getLast hds.1, List.getLast?_eq_some_getLast hds.1, hds.2 _ (List.getLast_mem hds.1)⟩
  obtain ⟨w, hw, hwdigit⟩ := hdigits hwhole.isDigits
  rw [List.getLast?_append, List.getLast?_append, List.getLast?_append, hw] at hc
  cases hexponent with
  | none =>
    cases hfraction with
    | none =>
      obtain rfl : w = c := by simpa using hc
      exact hwdigit
    | point hds =>
      obtain ⟨d, hd, hdigit⟩ := hdigits hds
      obtain rfl : d = c := by simpa [List.getLast?_cons, hd] using hc
      exact hdigit
  | plain _ hds | signed _ _ hds =>
    obtain ⟨d, hd, hdigit⟩ := hdigits hds
    obtain rfl : d = c := by simpa [List.getLast?_cons, hd] using hc
    exact hdigit

theorem IsText.last {cs : List Char} (h : IsText cs) {c : Char} (hc : cs.getLast? = some c) :
    isSpace c ∨ c.isDigit ∨ c ∈ ['l', 'e', '"', ']', '\x7d'] := by
  obtain ⟨a, value, b, -, hvalue, hb, rfl⟩ := h
  rw [List.getLast?_append] at hc
  -- The text ends in the space around the value, if there is any, and otherwise with the value.
  cases hlast : b.getLast? with
  | some d =>
    obtain rfl : d = c := by simpa [hlast] using hc
    exact .inl (hb d (List.mem_of_getLast? hlast))
  | none =>
    have hvaluelast : value.getLast? = some c := by
      obtain ⟨d, rest, hcons, -⟩ := hvalue.opens
      rw [hlast, List.getLast?_append] at hc
      have hsome : value.getLast?.isSome := by simp [hcons]
      obtain ⟨e, he⟩ := Option.isSome_iff_exists.1 hsome
      simpa [he] using hc
    right
    cases hvalue with
    | null | true | false =>
      simp at hvaluelast
      subst hvaluelast
      decide
    | number hnumber => exact .inl (hnumber.last hvaluelast)
    | string | emptyArray | array | emptyObject | object =>
      rw [List.getLast?_append] at hvaluelast
      simp at hvaluelast
      subst hvaluelast
      decide

end RequestDocs.Json
