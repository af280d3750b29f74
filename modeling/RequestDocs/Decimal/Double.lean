/-!
# Doubles

Finite binary floating-point numbers of 64 bits, as the exact values `± m · 2 ^ q`.
-/

namespace RequestDocs

/-- A number by its 64 bits, so that `0.0` and `-0.0` differ. -/
structure Double where
  bits : UInt64
deriving DecidableEq, Inhabited

namespace Double

def ofFloat (x : Float) : Double := ⟨x.toBits⟩

def isNegative (x : Double) : Bool := x.bits.toNat / Nat.pow 2 63 == 1

def biasedExponent (x : Double) : Nat := x.bits.toNat / Nat.pow 2 52 % Nat.pow 2 11

def fraction (x : Double) : Nat := x.bits.toNat % Nat.pow 2 52

/-- The integer `m` of the value `m · 2 ^ q`. -/
def significand (x : Double) : Nat :=
  if x.biasedExponent = 0 then x.fraction else Nat.pow 2 52 + x.fraction

/-- The exponent `q` of the value `m · 2 ^ q`. -/
def exponent (x : Double) : Int := (max x.biasedExponent 1 : Int) - 1075

/-- Whether the next smaller double is only half as far away as the next larger one. -/
def isBinadeStart (x : Double) : Bool := x.fraction == 0 && 1 < x.biasedExponent

private def powerOfTen (k : Nat) : Float := Float.ofScientific 1 false k

/-- Scaling by a power of ten in steps of at most 308 decades, each step rounded; `none` when the
result is too large. -/
private def scaleBy (x : Float) (e : Int) : Nat → Option Float
  | 0 => some x
  | steps + 1 =>
    if e.natAbs ≤ 308 then
      let y := if 0 ≤ e then x * powerOfTen e.toNat else x / powerOfTen e.natAbs
      if y.isInf then none else some y
    else if x == 0.0 then some x
    else if 0 ≤ e then none
    else scaleBy (x / powerOfTen 308) (e + 308) steps

/-- The double read from `± m · 10 ^ e` with `m` below `2 ^ 64`: `m` is rounded first, then the
power of ten is applied. -/
def ofDecimal? (negative : Bool) (m : Nat) (e : Int) : Option Double :=
  (scaleBy (Float.ofNat m) e 4).map fun x => ofFloat (if negative then -x else x)

/-- The double nearest to `± m · 10 ^ e`; `none` when it is too large. -/
def nearest? (negative : Bool) (m : Nat) (e : Int) : Option Double :=
  let places := (toString m).length + e
  let x : Option Float :=
    if m = 0 || places < -400 then some 0.0
    else if 400 < places then none
    else
      let y := Float.ofScientific m (e < 0) e.natAbs
      if y.isInf then none else some y
  x.map fun x => ofFloat (if negative then -x else x)

end Double

end RequestDocs
