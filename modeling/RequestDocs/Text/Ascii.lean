/-!
# Letters and digits of ASCII

A property of letters and digits is checked on the characters of ASCII one by one.
-/

namespace RequestDocs.Text

theorem toNat_lt_of_isAlphanum {c : Char} (h : c.isAlphanum) : c.toNat < 128 := by
  have hcases : ((c.isUpper || c.isLower) || c.isDigit) = true := h
  rw [Bool.or_eq_true, Bool.or_eq_true] at hcases
  rcases hcases with (hupper | hlower) | hdigit
  · have hle : c.toNat ≤ 90 := (of_decide_eq_true hupper).2
    omega
  · have hle : c.toNat ≤ 122 := of_decide_eq_true (Bool.and_eq_true_iff.1 hlower).2
    omega
  · have hle : c.toNat ≤ 57 := of_decide_eq_true (Bool.and_eq_true_iff.1 hdigit).2
    omega

theorem of_ascii {P : Char → Prop} (hall : ∀ n < 128, P (Char.ofNat n)) {c : Char}
    (hc : c.toNat < 128) : P c := by
  rw [← Char.ofNat_toNat c]
  exact hall c.toNat hc

theorem of_isAlphanum {P : Char → Prop}
    (hall : ∀ n < 128, (Char.ofNat n).isAlphanum → P (Char.ofNat n)) {c : Char}
    (hc : c.isAlphanum) : P c :=
  of_ascii (P := fun c => c.isAlphanum → P c) hall (toNat_lt_of_isAlphanum hc) hc

end RequestDocs.Text
