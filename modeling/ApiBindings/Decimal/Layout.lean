import ApiBindings.Decimal.Shortest

/-!
# Layout of numbers

A number of double precision is written with the fewest digits that identify it. From `10 ^ -4` up
to, but not including, `10 ^ 16` it is written in positions and always shows a fraction, if only
`.0`; outside that range it is written with an exponent that has a sign and at least two digits.
-/

namespace ApiBindings.Decimal

def zeros (n : Nat) : String := String.ofList (List.replicate n '0')

/-- The exponent part: its sign and at least two digits. -/
def exponentPart (e : Int) : String :=
  let digits := toString e.natAbs
  (if e < 0 then "-" else "+") ++ (if digits.length < 2 then "0" else "") ++ digits

/-- A decimal in positions or with an exponent. -/
def Numeral.layout (n : Numeral) : String :=
  let digits := (toString n.digits).toList
  let point : Int := digits.length + n.exponent
  if -4 < point && point ≤ 16 then
    if point ≤ 0 then "0." ++ zeros (-point).toNat ++ String.ofList digits
    else if digits.length ≤ point.toNat then
      String.ofList digits ++ zeros (point.toNat - digits.length) ++ ".0"
    else
      String.ofList (digits.take point.toNat) ++ "." ++ String.ofList (digits.drop point.toNat)
  else
    let fraction := digits.drop 1
    String.ofList (digits.take 1) ++ (if fraction.isEmpty then "" else ".") ++
      String.ofList fraction ++ "e" ++ exponentPart (point - 1)

def Binary64.text (x : Binary64) : String :=
  if x.isNaN then "nan"
  else
    (if x.isNegative then "-" else "") ++
      (if x.isFinite then
        if x.significand == 0 then "0.0" else x.shortest.layout
      else "inf")

end ApiBindings.Decimal
