import RequestDocs.Decimal.Double
/-!
# Shortest decimals

The decimal with the fewest digits that reads back to a given double, nearest to it among those of
that length. All comparisons are between integers.
-/

namespace RequestDocs.Decimal

/-- A positive decimal `digits · 10 ^ exponent`. -/
structure Scaled where
  digits : Nat
  exponent : Int
deriving DecidableEq

/-- Whether `a · 10 ^ e · 2 ^ (-q)` is at most `b`, for integers `a` and `b`. -/
private def leScaled (a : Nat) (e q : Int) (b : Nat) : Bool :=
  a * Nat.pow 10 e.toNat * Nat.pow 2 (-q).toNat ≤ b * Nat.pow 10 (-e).toNat * Nat.pow 2 q.toNat

private def geScaled (a : Nat) (e q : Int) (b : Nat) : Bool :=
  b * Nat.pow 10 (-e).toNat * Nat.pow 2 q.toNat ≤ a * Nat.pow 10 e.toNat * Nat.pow 2 (-q).toNat

/-- The largest `d` with `d · 10 ^ e ≤ b · 2 ^ q`. -/
private def floorScaled (b : Nat) (q e : Int) : Nat :=
  b * Nat.pow 2 q.toNat * Nat.pow 10 (-e).toNat / (Nat.pow 2 (-q).toNat * Nat.pow 10 e.toNat)

/-- Whether `a · 10 ^ e` rounds to the double with significand `m` and exponent `q`. Four times the
value, its lower bound and its upper bound are integers at exponent `q - 2`; the bounds belong to
the interval exactly when `m` is even. -/
def roundsTo (m : Nat) (q : Int) (binadeStart : Bool) (a : Nat) (e : Int) : Bool :=
  let low := if binadeStart then 4 * m - 1 else 4 * m - 2
  let high := 4 * m + 2
  if m % 2 == 0 then geScaled a e (q - 2) low && leScaled a e (q - 2) high
  else !leScaled a e (q - 2) low && !geScaled a e (q - 2) high

private def digitCount (n : Nat) : Nat := (toString n).length

/-- The exponent `k` with `10 ^ (k - 1) ≤ m · 2 ^ q < 10 ^ k`, for a positive `m`. -/
private def magnitude (m : Nat) (q : Int) : Int :=
  let shift := 350
  (digitCount (floorScaled m q (-shift)) : Int) - shift

/-- The grid point of `length` digits that rounds to the value, if one of its two neighbours does;
of two the nearer, of two at the same distance the even one. -/
private def onGrid? (m : Nat) (q : Int) (binadeStart : Bool) (length : Nat) : Option Scaled :=
  let e := magnitude m q - length
  let down := floorScaled m q e
  let up := down + 1
  match roundsTo m q binadeStart down e, roundsTo m q binadeStart up e with
  | true, false => some ⟨down, e⟩
  | false, true => some ⟨up, e⟩
  | false, false => none
  | true, true =>
    let belowMiddle := !leScaled (2 * down + 1) e q (2 * m)
    let aboveMiddle := !geScaled (2 * down + 1) e q (2 * m)
    if belowMiddle || (!aboveMiddle && down % 2 == 0) then some ⟨down, e⟩ else some ⟨up, e⟩

private def dropZeros (d : Scaled) : Nat → Scaled
  | 0 => d
  | n + 1 => if d.digits % 10 == 0 then dropZeros ⟨d.digits / 10, d.exponent + 1⟩ n else d

/-- The shortest decimal of a positive finite double; seventeen digits are always enough. -/
def shortest (x : Double) : Scaled :=
  let found := (List.range 17).findSome? fun i =>
    onGrid? x.significand x.exponent x.isBinadeStart (i + 1)
  dropZeros (found.getD ⟨x.significand, 0⟩) 20

theorem roundsTo_zero {m : Nat} (hm : 0 < m) (q : Int) (binadeStart : Bool) (e : Int) :
    roundsTo m q binadeStart 0 e = false := by
  have hlow : 0 < if binadeStart then 4 * m - 1 else 4 * m - 2 := by split <;> omega
  have hpositive (b : Nat) (hb : 0 < b) : 0 < b * Nat.pow 10 (-e).toNat * Nat.pow 2 (q - 2).toNat :=
    Nat.mul_pos (Nat.mul_pos hb (Nat.pow_pos (by decide))) (Nat.pow_pos (by decide))
  have hne := Nat.ne_of_gt (hpositive _ hlow)
  unfold roundsTo
  simp only [geScaled, leScaled, Nat.zero_mul, Nat.le_zero, hne]
  split <;> simp

private theorem onGrid_pos {m : Nat} (hm : 0 < m) {q : Int} {binadeStart : Bool} {length : Nat}
    {d : Scaled} (h : onGrid? m q binadeStart length = some d) : 0 < d.digits := by
  have hdown {a : Nat} {e : Int} (ha : roundsTo m q binadeStart a e = true) : 0 < a := by
    apply Nat.pos_of_ne_zero
    rintro rfl
    rw [roundsTo_zero hm] at ha
    cases ha
  unfold onGrid? at h
  simp only at h
  split at h
  · next hrounds _ =>
    cases h
    exact hdown hrounds
  · cases h
    exact Nat.succ_pos _
  · cases h
  · next hrounds _ =>
    split at h <;> cases h
    · exact hdown hrounds
    · exact Nat.succ_pos _

private theorem dropZeros_pos (n : Nat) {d : Scaled} (h : 0 < d.digits) :
    0 < (dropZeros d n).digits := by
  induction n generalizing d with
  | zero => exact h
  | succ n ih =>
    unfold dropZeros
    split
    · next hzero =>
      have hmod : d.digits % 10 = 0 := by simpa using hzero
      exact ih (show 0 < d.digits / 10 by omega)
    · exact h

theorem shortest_pos {x : Double} (h : x.significand ≠ 0) : 0 < (shortest x).digits := by
  have hm : 0 < x.significand := Nat.pos_of_ne_zero h
  refine dropZeros_pos 20 ?_
  cases hfound : (List.range 17).findSome? fun i =>
      onGrid? x.significand x.exponent x.isBinadeStart (i + 1) with
  | none => exact hm
  | some d =>
    obtain ⟨i, -, hgrid⟩ := List.exists_of_findSome?_eq_some hfound
    exact onGrid_pos hm hgrid

end RequestDocs.Decimal
