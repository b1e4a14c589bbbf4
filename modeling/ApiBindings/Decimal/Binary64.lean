import ApiBindings.Decimal.Power

/-!
# Double-precision numbers

A number is kept as its 64 bits, so that two numbers are equal exactly when they are the same datum.
A finite number is `significand * 2 ^ exponent` with a sign.
-/

namespace ApiBindings.Decimal

/-- A double-precision number, given by its bits. -/
structure Binary64 where
  bits : UInt64
  deriving DecidableEq, Repr

namespace Binary64

def ofFloat (x : Float) : Binary64 := ⟨x.toBits⟩

def toFloat (x : Binary64) : Float := Float.ofBits x.bits

def negate (x : Binary64) : Binary64 := ⟨x.bits ^^^ 0x8000000000000000⟩

/-- The number with the given sign: itself, or its opposite. -/
def withSign (negative : Bool) (x : Binary64) : Binary64 := if negative then x.negate else x

def infinity : Binary64 := ⟨0x7FF0000000000000⟩

def nan : Binary64 := ⟨0x7FF8000000000000⟩

/-! ## Rounding -/

/-- The quotient of two numbers rounded to the nearest whole number, a tie to the even one. -/
def roundDiv (n d : Nat) : Nat :=
  let twice := 2 * (n % d)
  if twice > d || (twice == d && n / d % 2 == 1) then n / d + 1 else n / d

/-- A quotient with its numerator or its denominator scaled, so that `2 ^ e` becomes its unit. -/
def inUnits (n d : Nat) (e : Int) : Nat × Nat :=
  if 0 ≤ e then (n, d * twoTo e.toNat) else (n * twoTo (-e).toNat, d)

/-- The exponent of the last binary place that a double-precision number near `n / d` has. -/
def lastPlace (n d : Nat) : Int :=
  let e : Int := max (n.log2 - d.log2 - 52) (-1074)
  let (a, b) := inUnits n d e
  if e > -1074 && a / b < twoTo 52 then e - 1 else e

/-- The number nearest to `n / d`, infinite when no finite one is near. In order of size the numbers
have consecutive bits, so rounding up to the next power of two needs no care. -/
def ofRatio (n d : Nat) : Binary64 :=
  if n == 0 then ⟨0⟩
  else
    let e := lastPlace n d
    let (a, b) := inUnits n d e
    let bits := (e + 1074).toNat * twoTo 52 + roundDiv a b
    if bits < 0x7FF * twoTo 52 then ⟨UInt64.ofNat bits⟩ else infinity

/-- The number nearest to `digits * 10 ^ exponent`. Powers that are out of reach are not worked
out. -/
def ofDecimal (digits : Nat) (exponent : Int) : Binary64 :=
  let size : Int := digits.log2
  if size * 3 / 10 + exponent > 310 then if digits == 0 then ⟨0⟩ else infinity
  else if size * 4 / 10 + exponent < -330 then ⟨0⟩
  else if 0 ≤ exponent then ofRatio (digits * tenTo exponent.toNat) 1
  else ofRatio digits (tenTo (-exponent).toNat)

/-! ## Parts -/

def isNegative (x : Binary64) : Bool := x.bits >>> 63 == 1

/-- The eleven bits of the exponent. -/
def exponentField (x : Binary64) : Nat := ((x.bits >>> 52) &&& 0x7FF).toNat

/-- The fifty-two bits of the fraction. -/
def fractionField (x : Binary64) : Nat := (x.bits &&& 0xFFFFFFFFFFFFF).toNat

/-- Whether the number is neither infinite nor a NaN. -/
def isFinite (x : Binary64) : Bool := x.exponentField != 0x7FF

def isNaN (x : Binary64) : Bool := x.exponentField == 0x7FF && x.fractionField != 0

/-- The whole number that a finite number is a power-of-two multiple of. -/
def significand (x : Binary64) : Nat :=
  if x.exponentField == 0 then x.fractionField else twoTo 52 + x.fractionField

/-- The power of two that goes with the significand. -/
def exponent (x : Binary64) : Int :=
  if x.exponentField == 0 then -1074 else (x.exponentField : Int) - 1075

/-- Whether the next smaller magnitude is half as far away as the next larger one. -/
def isPowerStep (x : Binary64) : Bool := x.fractionField == 0 && x.exponentField > 1

def isZero (x : Binary64) : Bool := x.isFinite && x.significand == 0

/-- The integer that the number equals, if it is one. -/
def toInt? (x : Binary64) : Option Int :=
  let magnitude? : Option Nat :=
    if !x.isFinite then none
    else if 0 ≤ x.exponent then some (x.significand * twoTo x.exponent.toNat)
    else
      let unit := twoTo (-x.exponent).toNat
      if x.significand % unit == 0 then some (x.significand / unit) else none
  magnitude?.map fun n => if x.isNegative then -(n : Int) else n

end Binary64

end ApiBindings.Decimal
