import RequestDocs.Proofs.JsonGrammar
import RequestDocs.Sample.Basic
/-!
# Printed values

What is printed for a value, and the sample of every scalar, is a JSON value by the grammar.
-/

namespace RequestDocs.Json

theorem digits_toDigits (n : Nat) : Digits (Nat.toDigits 10 n) :=
  ⟨Nat.toDigits_ne_nil, fun _ => Nat.isDigit_of_mem_toDigits (by decide) (by decide)⟩

theorem head_toDigits {n : Nat} (hn : 0 < n) : ∃ c cs, Nat.toDigits 10 n = c :: cs ∧ c.isDigit ∧
    c ≠ '0' ∧ ∀ d ∈ cs, d.isDigit := by
  induction n using Nat.strongRecOn with
  | ind n ih =>
    have hall := (digits_toDigits n).2
    rw [Nat.toDigits_eq_if (by decide)] at hall ⊢
    split
    · next hlt =>
      rw [if_pos hlt] at hall
      have hne : Nat.digitChar n ≠ '0' := by
        rw [Ne, Nat.digitChar_eq_zero]
        omega
      exact ⟨_, [], rfl, hall _ (by simp), hne, by simp⟩
    · next hge =>
      rw [if_neg hge] at hall
      obtain ⟨c, cs, hcs, -, hc, -⟩ := ih (n / 10) (by omega) (by omega)
      rw [hcs] at hall ⊢
      obtain ⟨hdigit, hrest⟩ := List.forall_mem_cons.1 hall
      exact ⟨c, cs ++ [Nat.digitChar (n % 10)], rfl, hdigit, hc, hrest⟩

theorem whole_toDigits (n : Nat) : Whole (Nat.toDigits 10 n) := by
  rcases Nat.eq_zero_or_pos n with rfl | hn
  · rw [Nat.toDigits_zero]
    exact .zero
  · obtain ⟨c, cs, heq, hdigit, hc, hcs⟩ := head_toDigits hn
    rw [heq]
    exact .digits hdigit hc hcs

theorem isNumber_unsigned {whole fraction exponent : List Char} (hwhole : Whole whole)
    (hfraction : Fraction fraction) (hexponent : Exponent exponent) :
    IsNumber (whole ++ fraction ++ exponent) :=
  .intro (.inl rfl) hwhole hfraction hexponent

private theorem isNumber_negative {whole fraction exponent : List Char} (hwhole : Whole whole)
    (hfraction : Fraction fraction) (hexponent : Exponent exponent) :
    IsNumber ('-' :: (whole ++ fraction ++ exponent)) :=
  .intro (.inr rfl) hwhole hfraction hexponent

theorem isNumber_integer (value : Int) : IsNumber (Number.integer value).print.toList := by
  rw [Number.print, Int.toString_eq_repr, Int.repr_eq_if]
  split
  · rw [Nat.toList_repr]
    simpa using isNumber_unsigned (whole_toDigits value.toNat) .none .none
  · have hnumber := isNumber_negative (whole_toDigits (-value).toNat) .none .none
    simpa [Nat.toList_repr] using hnumber

private theorem digits_zeros_append (n : Nat) {cs : List Char} (h : Digits cs) :
    Digits (List.replicate n '0' ++ cs) := by
  refine ⟨by simp [h.1], fun c hc => ?_⟩
  rcases List.mem_append.1 hc with hc | hc
  · rw [List.eq_of_mem_replicate hc]
    decide
  · exact h.2 c hc

private theorem write_parts {d : Decimal.Scaled} (h : 0 < d.digits) : ∃ whole fraction exponent,
    Whole whole ∧ Fraction fraction ∧ Exponent exponent ∧
      (d.write doubleLayout).toList = whole ++ fraction ++ exponent := by
  obtain ⟨c, cs, hdigits, hdigit, hc, hcs⟩ := head_toDigits h
  have hall : ∀ x ∈ c :: cs, x.isDigit := List.forall_mem_cons.2 ⟨hdigit, hcs⟩
  rw [Decimal.Scaled.toList_write]
  simp only [hdigits]
  split
  · split
    · -- A whole number: its digits, zeros and the suffix.
      refine ⟨c :: (cs ++ List.replicate d.exponent.toNat '0'), ['.', '0'], [], ?_, ?_, .none, ?_⟩
      · refine .digits hdigit hc fun x hx => ?_
        rcases List.mem_append.1 hx with hx | hx
        · exact hcs x hx
        · rw [List.eq_of_mem_replicate hx]
          decide
      · exact .point ⟨by simp, by simp⟩
      · simp [doubleLayout]
    · next hexponent =>
      split
      · next hpoint =>
        -- The point stands among the digits.
        obtain ⟨k, hk⟩ : ∃ k, ((c :: cs).length + d.exponent).toNat = k + 1 :=
          ⟨_, (Nat.succ_pred (by omega)).symm⟩
        have hlt : k < cs.length := by
          simp only [List.length_cons] at hk
          omega
        rw [hk]
        refine ⟨c :: cs.take k, '.' :: cs.drop k, [], ?_, ?_, .none, by simp⟩
        · exact .digits hdigit hc fun x hx => hcs x (List.mem_of_mem_take hx)
        · refine .point ⟨fun hnil => ?_, fun x hx => hcs x (List.mem_of_mem_drop hx)⟩
          have hle := List.drop_eq_nil_iff.1 hnil
          omega
      · -- The point stands before the digits.
        have hfraction (n : Nat) : Fraction ('.' :: (List.replicate n '0' ++ c :: cs)) :=
          .point (digits_zeros_append n ⟨by simp, hall⟩)
        exact ⟨['0'], _, [], .zero, hfraction _, .none, by rw [List.append_nil]; rfl⟩
  · have hlead : Whole ((c :: cs).take 1) := .digits hdigit hc (by simp)
    have hfraction : Fraction (if ((c :: cs).drop 1).isEmpty then [] else '.' :: (c :: cs).drop 1) := by
      cases cs with
      | nil => exact .none
      | cons x xs => exact .point ⟨by simp, hcs⟩
    have hexponent (b : Prop) [Decidable b] (n : Nat) : Exponent
        ((if b then doubleLayout.positiveMark else doubleLayout.negativeMark).toList ++
          Nat.toDigits 10 n) := by
      have hmark (sign : Char) (hsign : sign ∈ ['+', '-']) :
          Exponent ('e' :: sign :: Nat.toDigits 10 n) := .signed (by simp) hsign (digits_toDigits n)
      split
      · simpa [doubleLayout] using hmark '+' (by simp)
      · simpa [doubleLayout] using hmark '-' (by simp)
    exact ⟨_, _, _, hlead, hfraction, hexponent _ _, List.append_assoc _ _ _⟩

theorem isNumber_double (value : Double) : IsNumber (Number.double value).print.toList := by
  have hfraction : Fraction ['.', '0'] := .point ⟨by simp, by simp⟩
  have hzero : IsNumber ['0', '.', '0'] := isNumber_unsigned .zero hfraction .none
  have hnegative : IsNumber ['-', '0', '.', '0'] := isNumber_negative .zero hfraction .none
  rw [Number.print, Double.write]
  split
  · cases value.isNegative
    · simpa [doubleLayout] using hzero
    · simpa [doubleLayout] using hnegative
  · next hsignificand =>
    obtain ⟨whole, fraction, exponent, hwhole, hfraction, hexponent, heq⟩ :=
      write_parts (Decimal.shortest_pos hsignificand)
    cases value.isNegative
    · simpa [heq] using isNumber_unsigned hwhole hfraction hexponent
    · simpa [heq] using isNumber_negative hwhole hfraction hexponent

theorem stringBody_escapeChar (c : Char) : StringBody (escapeChar c) := by
  have hhex : ∀ k < 16, isHexDigit (Nat.digitChar k) := by decide
  fun_cases escapeChar c with
  | case8 _ _ _ _ _ _ _ hlow =>
    exact .code (by decide) (by decide) (hhex _ (by omega)) (hhex _ (by omega)) .nil
  | case9 hquote hback _ _ _ _ _ hlow =>
    exact .char (by simpa using hquote) (by simpa using hback) (by omega) .nil
  | _ => exact .escape (by decide) .nil

theorem stringBody_escape (cs : List Char) : StringBody (cs.flatMap escapeChar) := by
  induction cs with
  | nil => exact .nil
  | cons c cs ih => exact (stringBody_escapeChar c).append ih

theorem toList_quote (s : String) : (quote s).toList = '"' :: s.toList.flatMap escapeChar ++ ['"'] := by
  simp [quote]

mutual

/-- What is printed for a value is that value by the grammar. -/
theorem isValue_print : (value : Json) → IsValue value.print.toList
  | .null => .null
  | .bool true => .true
  | .bool false => .false
  | .number (.integer n) => .number (isNumber_integer n)
  | .number (.double x) => .number (isNumber_double x)
  | .string text => by
    rw [print, toList_quote]
    exact .string (stringBody_escape _)
  | .array items => by
    rcases isItems_print items with rfl | hitems
    · exact .emptyArray .nil
    · simpa [print] using IsValue.array .nil hitems .nil
  | .object members => by
    rcases isMembers_print members with rfl | hmembers
    · exact .emptyObject .nil
    · simpa [print] using IsValue.object .nil hmembers .nil

theorem isItems_print : (items : List Json) → items = [] ∨ IsItems (printItems items).toList
  | [] => .inl rfl
  | item :: items => .inr <| by
    have hitem := isValue_print item
    rcases isItems_print items with rfl | hitems
    · exact .one hitem
    · cases items with
      | nil => exact .one hitem
      | cons next items => simpa [printItems] using IsItems.more hitem .nil .nil hitems

theorem isMembers_print : (members : List (String × Json)) →
    members = [] ∨ IsMembers (printMembers members).toList
  | [] => .inl rfl
  | (key, value) :: members => .inr <| by
    have hkey := stringBody_escape key.toList
    have hvalue := isValue_print value
    have hone := IsMembers.one hkey .nil .nil hvalue
    rcases isMembers_print members with rfl | hmembers
    · simpa [printMembers, toList_quote] using hone
    · cases members with
      | nil => simpa [printMembers, toList_quote] using hone
      | cons next members =>
        have hmore := IsMembers.more hkey .nil .nil hvalue .nil .nil hmembers
        simpa [printMembers, toList_quote] using hmore

end

theorem StringBody.newline_not_mem {body : List Char} (h : StringBody body) : '\n' ∉ body := by
  have hhex {x : Char} (hx : isHexDigit x) : x ≠ '\n' := by
    rintro rfl
    exact absurd hx (by decide)
  induction h with
  | nil => simp
  | char _ _ hlow _ ih =>
    refine List.not_mem_cons_of_ne_of_not_mem ?_ ih
    rintro rfl
    exact absurd hlow (by decide)
  | escape hc _ ih =>
    have hne : _ ≠ '\n' := ne_of_mem_of_not_mem hc (by decide)
    simp [hne.symm, ih]
  | code ha hb hc hd _ ih =>
    simp [(hhex ha).symm, (hhex hb).symm, (hhex hc).symm, (hhex hd).symm, ih]

theorem newline_not_mem_escape (cs : List Char) : '\n' ∉ cs.flatMap escapeChar :=
  (stringBody_escape cs).newline_not_mem

private theorem newline_not_mem_number {cs : List Char} (h : IsNumber cs) : '\n' ∉ cs :=
  fun hmem => absurd (h.chars _ hmem) (by decide)

mutual

theorem newline_not_mem_print : (value : Json) → '\n' ∉ value.print.toList
  | .null | .bool true | .bool false => by simp [print]
  | .number (.integer n) => newline_not_mem_number (isNumber_integer n)
  | .number (.double x) => newline_not_mem_number (isNumber_double x)
  | .string text => by simpa [print, toList_quote] using newline_not_mem_escape text.toList
  | .array items => by simpa [print] using newline_not_mem_printItems items
  | .object members => by simpa [print] using newline_not_mem_printMembers members

theorem newline_not_mem_printItems : (items : List Json) → '\n' ∉ (printItems items).toList
  | [] => by simp [printItems]
  | item :: items => by
    have hitem := newline_not_mem_print item
    have hitems := newline_not_mem_printItems items
    cases items with
    | nil => simpa [printItems] using hitem
    | cons next items => simpa [printItems, hitem] using hitems

theorem newline_not_mem_printMembers :
    (members : List (String × Json)) → '\n' ∉ (printMembers members).toList
  | [] => by simp [printMembers]
  | (key, value) :: members => by
    have hkey := newline_not_mem_escape key.toList
    have hvalue := newline_not_mem_print value
    have hmembers := newline_not_mem_printMembers members
    cases members with
    | nil => simpa [printMembers, toList_quote, hvalue] using hkey
    | cons next members => simpa [printMembers, toList_quote, hkey, hvalue] using hmembers

end

end RequestDocs.Json

namespace RequestDocs.Sample

open Json

def isUnescaped (c : Char) : Bool := c != '"' && c != '\\' && 0x20 ≤ c.toNat

theorem stringBody_of_unescaped {body : List Char} (h : body.all isUnescaped) : StringBody body := by
  induction body with
  | nil => exact .nil
  | cons c cs ih =>
    simp only [List.all_cons, isUnescaped, Bool.and_eq_true, bne_iff_ne, decide_eq_true_eq] at h
    obtain ⟨⟨⟨hquote, hback⟩, hlow⟩, hcs⟩ := h
    exact .char hquote hback hlow (ih hcs)

private theorem isValue_scalarTable : ∀ row ∈ scalarTable, IsValue row.2.toList := by
  have hquoted (body : List Char) (h : body.all isUnescaped) : IsValue ('"' :: body ++ ['"']) :=
    .string (stringBody_of_unescaped h)
  have hwhole (n : Nat) : IsValue (Nat.toDigits 10 n) := by
    simpa using IsValue.number (isNumber_unsigned (whole_toDigits n) .none .none)
  have hpoint (n : Nat) (cs : List Char) (hne : cs ≠ []) (h : cs.all Char.isDigit) :
      IsValue (Nat.toDigits 10 n ++ '.' :: cs) := by
    have hfraction : Fraction ('.' :: cs) := .point ⟨hne, List.all_eq_true.1 h⟩
    simpa using IsValue.number (isNumber_unsigned (whole_toDigits n) hfraction .none)
  simp only [scalarTable, List.forall_mem_cons, List.not_mem_nil, false_imp_iff, implies_true,
    and_true]
  exact ⟨hquoted "example".toList (by decide), .true, hwhole 123, hwhole 42,
    hpoint 3 "14".toList (by decide) (by decide), hpoint 3 "14159".toList (by decide) (by decide),
    hpoint 99 "99".toList (by decide) (by decide), hwhole 9007199254740991,
    hquoted "aGVsbG8=".toList (by decide), hquoted "2024-01-01".toList (by decide),
    hquoted "2024-01-01T12:00:00Z".toList (by decide), hquoted "P1DT2H3M4S".toList (by decide),
    hquoted "123e4567-e89b-12d3-a456-426614174000".toList (by decide)⟩

theorem isValue_scalar (name : String) : IsValue (scalar name).toList := by
  unfold scalar scalar?
  cases hrow : scalarTable.find? fun row => row.1.contains name with
  | some row => exact isValue_scalarTable row (List.mem_of_find?_eq_some hrow)
  | none => exact .number (isNumber_integer 123)

end RequestDocs.Sample
