import RequestDocs.Decimal.Shortest
/-!
# Decimal layout

How digits and an exponent are written out: where positional notation ends and how an exponent is
marked.
-/

namespace RequestDocs.Decimal

structure Layout where
  /-- Positional when the point stands after more than this many digits. -/
  pointAbove : Int
  /-- Positional when the point stands after at most this many digits. -/
  pointUpTo : Int
  /-- Written after a whole number. -/
  wholeSuffix : String
  /-- Written before an exponent that is not negative. -/
  positiveMark : String
  /-- Written before the absolute value of a negative exponent. -/
  negativeMark : String

private def zeros (n : Nat) : String := String.ofList (List.replicate n '0')

def Scaled.write (layout : Layout) (d : Scaled) : String :=
  let digits := (toString d.digits).toList
  let point : Int := digits.length + d.exponent
  if layout.pointAbove < point && point ≤ layout.pointUpTo then
    if 0 ≤ d.exponent then
      String.ofList digits ++ zeros d.exponent.toNat ++ layout.wholeSuffix
    else if 0 < point then
      String.ofList (digits.take point.toNat) ++ "." ++ String.ofList (digits.drop point.toNat)
    else "0." ++ zeros (-point).toNat ++ String.ofList digits
  else
    let lead := digits.take 1
    let rest := digits.drop 1
    let mantissa :=
      if rest.isEmpty then String.ofList lead
      else String.ofList lead ++ "." ++ String.ofList rest
    let e := point - 1
    mantissa ++ (if 0 ≤ e then layout.positiveMark else layout.negativeMark) ++ toString e.natAbs

theorem Scaled.toList_write (layout : Layout) (d : Scaled) :
    (d.write layout).toList =
      let digits := Nat.toDigits 10 d.digits
      let point : Int := digits.length + d.exponent
      if layout.pointAbove < point && point ≤ layout.pointUpTo then
        if 0 ≤ d.exponent then
          digits ++ List.replicate d.exponent.toNat '0' ++ layout.wholeSuffix.toList
        else if 0 < point then digits.take point.toNat ++ '.' :: digits.drop point.toNat
        else '0' :: '.' :: (List.replicate (-point).toNat '0' ++ digits)
      else
        digits.take 1 ++ (if (digits.drop 1).isEmpty then [] else '.' :: digits.drop 1) ++
          (if 0 ≤ point - 1 then layout.positiveMark else layout.negativeMark).toList ++
          Nat.toDigits 10 (point - 1).natAbs := by
  unfold Scaled.write
  simp only [Nat.toString_eq_repr, Nat.toList_repr]
  split
  · split
    · simp [zeros]
    · split <;> simp [zeros]
  · split <;> simp

end RequestDocs.Decimal

namespace RequestDocs.Double

def write (layout : Decimal.Layout) (x : Double) : String :=
  let sign := if x.isNegative then "-" else ""
  if x.significand = 0 then sign ++ "0" ++ layout.wholeSuffix
  else sign ++ (Decimal.shortest x).write layout

end RequestDocs.Double
