import ApiBindings.Document.Value
import ApiBindings.Fault
import ApiBindings.Text.Blank
import ApiBindings.Text.DecimalDigit
import ApiBindings.Text.Hexadecimal
import ApiBindings.Text.Split

/-!
# What scalars stand for

A plain scalar that has no tag is read by its form: a word for null or for a truth value, an integer
in one of five notations, a number of double precision, a date, or a text. A scalar with a tag is
read as what the tag says, and its form may then be a little wider.
-/

namespace ApiBindings.Yaml

/-- What a node is. -/
inductive Tag where
  | null
  | bool
  | int
  | float
  | date
  | text
  | sequence
  | mapping
  | merge
  | standard
  | unknown
  deriving DecidableEq, Repr

/-! ## Forms -/

/-- Words for true. -/
def trueWords : List String := ["yes", "Yes", "YES", "true", "True", "TRUE", "on", "On", "ON"]

/-- Words for false. -/
def falseWords : List String := ["no", "No", "NO", "false", "False", "FALSE", "off", "Off", "OFF"]

/-- Words for null. -/
def nullWords : List String := ["", "~", "null", "Null", "NULL"]

/-- A text without a sign at its start. -/
def dropSign : List Char → List Char
  | c :: cs => if c == '+' || c == '-' then cs else c :: cs
  | [] => []

/-- Whether a character is a digit of a class or separates digits. -/
def isDigitOr (isDigit : Char → Bool) (c : Char) : Bool := isDigit c || c == '_'

/-- Whether a text starts with a decimal digit, all else being decimal digits and separators. -/
def isDecimal : List Char → Bool
  | [] => false
  | c :: cs => c.isDigit && cs.all (isDigitOr Char.isDigit)

/-- Whether a text is one or two digits that stay below sixty. -/
def isSixtieth : List Char → Bool
  | [c] => c.isDigit
  | [c, d] => ('0' ≤ c && c ≤ '5') && d.isDigit
  | _ => false

/-- Whether parts between colons are a decimal number and at least one part below sixty. -/
def isSexagesimal : List (List Char) → Bool
  | whole :: parts => isDecimal whole && !parts.isEmpty && parts.all isSixtieth
  | [] => false

/-- Whether an integer without its sign has a notation of its own: binary, octal, decimal,
hexadecimal, or with parts below sixty. -/
def isUnsignedInt (cs : List Char) : Bool :=
  match cs with
  | ['0'] => true
  | '0' :: 'b' :: digits =>
    !digits.isEmpty && digits.all (isDigitOr fun c => c == '0' || c == '1')
  | '0' :: 'x' :: digits =>
    !digits.isEmpty && digits.all (isDigitOr fun c => (Text.hexValue? c).isSome)
  | '0' :: digits => digits.all (isDigitOr fun c => '0' ≤ c && c ≤ '7')
  | _ => isDecimal cs || isSexagesimal (Text.split ':' cs)

/-- Whether a text has the form of an integer. -/
def isInt (cs : List Char) : Bool := isUnsignedInt (dropSign cs)

/-- Whether a text is empty or an exponent, which has a sign. -/
def isExponent : List Char → Bool
  | [] => true
  | e :: sign :: digits =>
    (e == 'e' || e == 'E') && (sign == '+' || sign == '-') && !digits.isEmpty &&
      digits.all Char.isDigit
  | _ => false

/-- Whether a text is a fraction behind its point, and an exponent where one is allowed. -/
def isFraction (allowsExponent : Bool) (cs : List Char) : Bool :=
  let rest := cs.dropWhile (isDigitOr Char.isDigit)
  rest.isEmpty || (allowsExponent && isExponent rest)

/-- Whether a text has the form of a number with a point. -/
def isPointed (cs : List Char) : Bool :=
  let unsigned := dropSign cs
  let whole := unsigned.takeWhile (· != '.')
  match unsigned.drop whole.length with
  | _ :: fraction =>
    (isDecimal whole && isFraction true fraction) ||
      (isSexagesimal (Text.split ':' whole) && isFraction false fraction) ||
      (cs.head? == some '.' && fraction.head?.any Char.isDigit && isFraction true fraction)
  | [] => false

/-- Words for infinity, without a sign. -/
def infinityWords : List String := [".inf", ".Inf", ".INF"]

/-- Words for what is not a number. -/
def nanWords : List String := [".nan", ".NaN", ".NAN"]

/-- Whether a text has the form of a number of double precision. -/
def isFloat (cs : List Char) : Bool :=
  isPointed cs || infinityWords.contains (String.ofList (dropSign cs)) ||
    nanWords.contains (String.ofList cs)

/-- The form of a date: four, two and two digits with dashes in between. -/
def isDate (cs : List Char) : Bool :=
  match Text.split '-' cs with
  | [year, month, day] =>
    year.length == 4 && month.length == 2 && day.length == 2 &&
      (year ++ month ++ day).all Char.isDigit
  | _ => false

/-- What a plain scalar without a tag is. -/
def Tag.ofPlain (s : String) : Tag :=
  let cs := s.toList
  if trueWords.contains s || falseWords.contains s then .bool
  else if isFloat cs then .float
  else if isInt cs then .int
  else if s == "<<" then .merge
  else if nullWords.contains s then .null
  else if isDate cs then .date
  else if s == "=" then .standard
  else .text

/-! ## Values -/

/-- A text with the digits of all scripts as those of ASCII, without blanks at its ends. -/
def plainDigits (cs : List Char) : List Char :=
  (Text.trim cs).map fun c => ((Text.digitValue? c).map Text.hexDigit).getD c

/-- The sign of a number and what follows it. -/
def signed (cs : List Char) : Bool × List Char := (cs.head? == some '-', dropSign cs)

/-- The number that a row of digits of a base names. -/
def digitsNumber? (base : Nat) (cs : List Char) : Option Nat :=
  if cs.isEmpty then none
  else
    cs.foldlM
      (fun n c => do
        let d ← Text.hexValue? c
        if d < base then some (base * n + d) else none)
      0

/-- The integer that digits of a base with a sign or without one name. -/
def integer? (base : Nat) (cs : List Char) : Option Int := do
  let (negative, digits) := signed (plainDigits cs)
  let n ← digitsNumber? base digits
  return if negative then -(n : Int) else n

/-- A text without separators between digits. -/
def dropSeparators (cs : List Char) : List Char := cs.filter (· != '_')

/-- The integer of parts that count sixtieths of each other, the last one units. -/
def sexagesimalInt (parts : List Int) : Int := parts.foldl (fun n part => 60 * n + part) 0

/-- The integer that a text without its first sign stands for. -/
def unsignedInt? (cs : List Char) : Option Int :=
  match cs with
  | [] => none
  | ['0'] => some 0
  | '0' :: 'b' :: digits => integer? 2 digits
  | '0' :: 'x' :: digits => integer? 16 digits
  | '0' :: _ => integer? 8 cs
  | _ => ((Text.split ':' cs).mapM (integer? 10)).map sexagesimalInt

/-- The integer that a scalar stands for. -/
def intValue? (s : String) : Option Int :=
  let (negative, unsigned) := signed (dropSeparators s.toList)
  (unsignedInt? unsigned).map fun n => if negative then -n else n

open Decimal (Binary64)

/-- The number of double precision that digits with a point, an exponent or neither name. -/
def decimal? (cs : List Char) : Option Binary64 := do
  let whole := cs.takeWhile Char.isDigit
  let rest := cs.drop whole.length
  let (fraction, rest) :=
    match rest with
    | '.' :: rest => (rest.takeWhile Char.isDigit, rest.dropWhile Char.isDigit)
    | _ => ([], rest)
  let exponent : Int ←
    match rest with
    | [] => some 0
    | e :: digits => if e == 'e' || e == 'E' then integer? 10 digits else none
  let digits ← digitsNumber? 10 (whole ++ fraction)
  return Binary64.ofDecimal digits (exponent - fraction.length)

/-- The number of double precision that a text with a sign or without one names. -/
def number? (cs : List Char) : Option Binary64 := do
  let (negative, unsigned) := signed (plainDigits cs)
  let x ←
    if ["inf", "infinity"].contains (String.ofList unsigned) then some Binary64.infinity
    else if String.ofList unsigned == "nan" then some Binary64.nan
    else decimal? unsigned
  return x.withSign negative

/-- The sum of parts that count sixtieths of each other, the last one units. -/
def sexagesimal (parts : List Binary64) : Binary64 :=
  let step := fun (sum, unit) (part : Binary64) => (sum + part.toFloat * unit, unit * 60)
  Binary64.ofFloat (parts.reverse.foldl step ((0 : Float), (1 : Float))).1

/-- The number of double precision that a scalar stands for. -/
def floatValue? (s : String) : Option Binary64 := do
  let (negative, unsigned) := signed ((dropSeparators s.toList).map Char.toLower)
  if String.ofList unsigned == ".nan" then return Binary64.nan
  else
    let x ←
      if String.ofList unsigned == ".inf" then some Binary64.infinity
      else if unsigned.contains ':' then
        ((Text.split ':' unsigned).mapM number?).map sexagesimal
      else number? unsigned
    return x.withSign negative

/-- How many days a month has. -/
def daysInMonth (year month : Nat) : Nat :=
  if month == 2 then
    if year % 4 == 0 && (year % 100 != 0 || year % 400 == 0) then 29 else 28
  else if [4, 6, 9, 11].contains month then 30
  else 31

/-- The date of the calendar with these numbers. -/
def date? (year month day : Nat) : Option Date :=
  if 1 ≤ year && 1 ≤ month && month ≤ 12 && 1 ≤ day && day ≤ daysInMonth year month then
    some ⟨year, month, day⟩
  else none

/-- The date that a scalar stands for; its month and day may have one digit. -/
def dateValue? (s : String) : Option Date :=
  match Text.split '-' s.toList with
  | [year, month, day] => do
    if year.length == 4 && month.length ≤ 2 && day.length ≤ 2 then
      date? (← digitsNumber? 10 year) (← digitsNumber? 10 month) (← digitsNumber? 10 day)
    else none
  | _ => none

/-- The truth value that a scalar stands for, in any letter case. -/
def boolValue? (s : String) : Option Bool :=
  let word := String.ofList (s.toList.map Char.toLower)
  if trueWords.contains word then some true
  else if falseWords.contains word then some false
  else none

end ApiBindings.Yaml
