import ApiBindings.Decimal.Binary64

/-!
# The shortest decimal of a double-precision number

Of all decimals that are nearer to a number than to any other number of double precision, the
shortest is the one with the fewest digits, and of those the nearest. It is found by exact
arithmetic on naturals: for one digit, two digits and so on, the two multiples of the unit in
question next to the number are tried.
-/

namespace ApiBindings.Decimal

/-- The decimal `digits * 10 ^ exponent`. -/
structure Numeral where
  digits : Nat
  exponent : Int
  deriving DecidableEq, Repr

namespace Numeral

/-- Compares `n` with `m * 2 ^ e`. -/
def compareBinary (n : Numeral) (m : Nat) (e : Int) : Ordering :=
  compare (n.digits * tenTo n.exponent.toNat * twoTo (-e).toNat)
    (m * twoTo e.toNat * tenTo (-n.exponent).toNat)

/-- Whether the decimal lies among the reals that round to `x`; the halfway points belong to the
number with the even significand. -/
def roundsTo (n : Numeral) (x : Binary64) : Bool :=
  let closed := x.significand % 2 == 0
  let below := 4 * x.significand - (if x.isPowerStep then 1 else 2)
  let above := 4 * x.significand + 2
  let atLow := n.compareBinary below (x.exponent - 2)
  let atHigh := n.compareBinary above (x.exponent - 2)
  (atLow == .gt || (closed && atLow == .eq)) && (atHigh == .lt || (closed && atHigh == .eq))

/-- The decimal without zeros at the end of its digits. -/
def strip (n : Numeral) : Numeral :=
  if h : n.digits ≠ 0 ∧ n.digits % 10 = 0 then strip ⟨n.digits / 10, n.exponent + 1⟩ else n
termination_by n.digits
decreasing_by exact Nat.div_lt_self (Nat.pos_of_ne_zero h.1) (by decide)

end Numeral

namespace Binary64

/-- The whole part of the magnitude divided by `10 ^ unit`. -/
def quotient (x : Binary64) (unit : Int) : Nat :=
  (x.significand * twoTo x.exponent.toNat * tenTo (-unit).toNat) /
    (twoTo (-x.exponent).toNat * tenTo unit.toNat)

/-- A power of ten below every positive number. -/
def smallestUnit : Int := -340

/-- The least `k` for which the magnitude of a positive number is below `10 ^ k`. -/
def scale (x : Binary64) : Int :=
  smallestUnit + (Nat.toDigits 10 (x.quotient smallestUnit)).length

/-- The multiple of `10 ^ unit` that rounds to the number, if one does: the nearer one if both
neighbours do, and the even one if both are equally near. -/
def nearest? (x : Binary64) (unit : Int) : Option Numeral :=
  let low := x.quotient unit
  match Numeral.roundsTo ⟨low, unit⟩ x, Numeral.roundsTo ⟨low + 1, unit⟩ x with
  | true, true =>
    match Numeral.compareBinary ⟨2 * low + 1, unit⟩ (2 * x.significand) x.exponent with
    | .gt => some ⟨low, unit⟩
    | .lt => some ⟨low + 1, unit⟩
    | .eq => some ⟨low + low % 2, unit⟩
  | true, false => some ⟨low, unit⟩
  | false, true => some ⟨low + 1, unit⟩
  | false, false => none

/-- The shortest decimal that rounds to the magnitude of a finite number; seventeen digits always
suffice. -/
def shortest (x : Binary64) : Numeral :=
  if x.significand == 0 then ⟨0, 0⟩
  else
    let scale := x.scale
    let found := (List.range 17).findSome? fun n => x.nearest? (scale - (n + 1 : Nat))
    (found.getD ⟨x.quotient (scale - 17), scale - 17⟩).strip

end Binary64

end ApiBindings.Decimal
