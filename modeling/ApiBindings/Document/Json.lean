import ApiBindings.Document.Value
import ApiBindings.Text.Hexadecimal

/-!
# Reading JSON

The text is cut into tokens, and the tokens are read by a machine with a stack of the collections
that are still open. Numbers without fraction and exponent are integers of any size, all others are
of double precision; `NaN` and the infinities are accepted as numbers. A key that comes again takes
the last value and keeps its first place.
-/

namespace ApiBindings.Json

open Decimal

/-! ## Tokens -/

/-- The smallest part of a JSON text. -/
inductive Token where
  | openList
  | closeList
  | openMapping
  | closeMapping
  | comma
  | colon
  | scalar (s : Scalar)
  deriving Repr

/-- A character that may stand between tokens. -/
def isSpace (c : Char) : Bool := c == ' ' || c == '\t' || c == '\n' || c == '\r'

/-- The character that a single letter after a backslash names. -/
def namedEscape? : Char → Option Char
  | '"' => some '"'
  | '\\' => some '\\'
  | '/' => some '/'
  | 'b' => some '\x08'
  | 'f' => some '\x0c'
  | 'n' => some '\n'
  | 'r' => some '\r'
  | 't' => some '\t'
  | _ => none

/-- The 16-bit unit of four hexadecimal digits. -/
def unit? (a b c d : Char) : Option Nat := Text.hexNumber? [a, b, c, d]

/-- The character of a pair of surrogates. -/
def ofSurrogates (high low : Nat) : Char :=
  Char.ofNat (0x10000 + (high - 0xD800) * 0x400 + (low - 0xDC00))

/-- What an escape after a backslash stands for, and how many characters it takes. A high surrogate
takes the low one that follows it along; one that stands alone has no character. -/
def escape? : List Char → Option (Char × Nat)
  | 'u' :: a :: b :: c :: d :: rest => do
    let high ← unit? a b c d
    if 0xD800 ≤ high && high < 0xDC00 then
      match rest with
      | '\\' :: 'u' :: a :: b :: c :: d :: _ => do
        let low ← unit? a b c d
        if 0xDC00 ≤ low && low < 0xE000 then some (ofSurrogates high low, 11) else none
      | _ => none
    else if 0xDC00 ≤ high && high < 0xE000 then none
    else some (Char.ofNat high, 5)
  | c :: _ => (namedEscape? c).map (·, 1)
  | [] => none

/-- The text up to the closing quote, and how many characters it takes with the quote. The first
`skip` characters belong to an escape and are passed over. -/
def stringBody? (skip : Nat) : List Char → Option (List Char × Nat)
  | [] => none
  | c :: cs =>
    match skip with
    | skip + 1 => (stringBody? skip cs).map fun (s, n) => (s, n + 1)
    | 0 =>
      if c == '"' then some ([], 1)
      else if c == '\\' then do
        let (d, length) ← escape? cs
        let (s, n) ← stringBody? length cs
        some (d :: s, n + 1)
      else if c < ' ' then none
      else (stringBody? 0 cs).map fun (s, n) => (c :: s, n + 1)

/-- The number that a row of decimal digits names. -/
def digitsValue (cs : List Char) : Nat := cs.foldl (fun n c => 10 * n + (c.toNat - 0x30)) 0

def leadingDigits (cs : List Char) : List Char := cs.takeWhile Char.isDigit

/-- The fraction that a text starts with, without its point. -/
def fraction : List Char → List Char
  | '.' :: cs => leadingDigits cs
  | _ => []

/-- The exponent that a text starts with: how many characters it takes, and its value. -/
def exponent? : List Char → Option (Nat × Int)
  | e :: cs =>
    if e == 'e' || e == 'E' then
      let (signLength, negative) :=
        match cs with
        | '+' :: _ => (1, false)
        | '-' :: _ => (1, true)
        | _ => (0, false)
      let digits := leadingDigits (cs.drop signLength)
      if digits.isEmpty then none
      else
        let n : Int := digitsValue digits
        some (1 + signLength + digits.length, if negative then -n else n)
    else none
  | [] => none

/-- The number that a text starts with, and how many characters it takes. -/
def number? (cs : List Char) : Option (Scalar × Nat) :=
  let negative := cs.head? == some '-'
  let signLength := if negative then 1 else 0
  let whole :=
    match cs.drop signLength with
    | '0' :: _ => ['0']
    | rest => leadingDigits rest
  if whole.isEmpty then none
  else
    let rest := cs.drop (signLength + whole.length)
    let fraction := fraction rest
    let fractionLength := if fraction.isEmpty then 0 else fraction.length + 1
    let exponent := exponent? (rest.drop fractionLength)
    let length := signLength + whole.length + fractionLength + (exponent.map (·.1)).getD 0
    if fraction.isEmpty && exponent.isNone then
      let n : Int := digitsValue whole
      some (.int (if negative then -n else n), length)
    else
      let digits := digitsValue (whole ++ fraction)
      let power := (exponent.map (·.2)).getD 0 - fraction.length
      some (.float ((Binary64.ofDecimal digits power).withSign negative), length)

/-- The words that stand for scalars. -/
def literals : List (List Char × Scalar) :=
  [("null".toList, .null), ("true".toList, .bool true), ("false".toList, .bool false),
   ("NaN".toList, .float .nan), ("Infinity".toList, .float .infinity),
   ("-Infinity".toList, .float Binary64.infinity.negate)]

/-- The token that a text starts with, and how many characters it takes. -/
def token? : List Char → Option (Token × Nat)
  | '[' :: _ => some (.openList, 1)
  | ']' :: _ => some (.closeList, 1)
  | '{' :: _ => some (.openMapping, 1)
  | '}' :: _ => some (.closeMapping, 1)
  | ',' :: _ => some (.comma, 1)
  | ':' :: _ => some (.colon, 1)
  | '"' :: cs => (stringBody? 0 cs).map fun (s, n) => (.scalar (.text (String.ofList s)), n + 1)
  | cs =>
    match literals.find? fun l => l.1.isPrefixOf cs with
    | some (word, s) => some (.scalar s, word.length)
    | none => (number? cs).map fun (s, n) => (.scalar s, n)

/-- The tokens of a text whose first `skip` characters belong to a token that is already read. -/
def tokensFrom (skip : Nat) : List Char → Option (List Token)
  | [] => some []
  | c :: cs =>
    match skip with
    | skip + 1 => tokensFrom skip cs
    | 0 =>
      if isSpace c then tokensFrom 0 cs
      else
        match token? (c :: cs) with
        | none => none
        | some (t, n) => (tokensFrom (n - 1) cs).map (t :: ·)

def tokens (cs : List Char) : Option (List Token) := tokensFrom 0 cs

/-! ## Values -/

/-- A collection that is still open, with what it holds so far, the last first. -/
inductive Frame where
  | list (items : List Value)
  | mapping (entries : List (Scalar × Value)) (key : Scalar)

/-- What the reader has come to. -/
inductive Position where
  | value
  | firstItem
  | firstKey
  | key (entries : List (Scalar × Value))
  | colon (entries : List (Scalar × Value)) (key : Scalar)
  | done (v : Value)

/-- The state of the reader: the open collections, the innermost first, and the position. -/
structure Reader where
  frames : List Frame
  position : Position

namespace Reader

/-- The state before the first token. -/
def start : Reader := ⟨[], .value⟩

/-- A mapping from its entries, the last first. -/
def closeMapping (entries : List (Scalar × Value)) : Value :=
  .mapping (Table.ofList entries.reverse)

/-- Starts a value. -/
def beginValue (frames : List Frame) : Token → Option Reader
  | .scalar s => some ⟨frames, .done (.scalar s)⟩
  | .openList => some ⟨frames, .firstItem⟩
  | .openMapping => some ⟨frames, .firstKey⟩
  | _ => none

/-- Starts a key of a mapping. -/
def beginKey (frames : List Frame) (entries : List (Scalar × Value)) : Token → Option Reader
  | .scalar (.text s) => some ⟨frames, .colon entries (.text s)⟩
  | _ => none

def step (r : Reader) (t : Token) : Option Reader :=
  match r.position, t with
  | .value, t => beginValue r.frames t
  | .firstItem, .closeList => some ⟨r.frames, .done (.list [])⟩
  | .firstItem, t => beginValue (.list [] :: r.frames) t
  | .firstKey, .closeMapping => some ⟨r.frames, .done (.mapping [])⟩
  | .firstKey, t => beginKey r.frames [] t
  | .key entries, t => beginKey r.frames entries t
  | .colon entries key, .colon => some ⟨.mapping entries key :: r.frames, .value⟩
  | .colon _ _, _ => none
  | .done v, t =>
    match r.frames, t with
    | .list items :: frames, .comma => some ⟨.list (v :: items) :: frames, .value⟩
    | .list items :: frames, .closeList => some ⟨frames, .done (.list (v :: items).reverse)⟩
    | .mapping entries key :: frames, .comma => some ⟨frames, .key ((key, v) :: entries)⟩
    | .mapping entries key :: frames, .closeMapping =>
      some ⟨frames, .done (closeMapping ((key, v) :: entries))⟩
    | _, _ => none

/-- The value that has been read, if it is complete. -/
def result? : Reader → Option Value
  | ⟨[], .done v⟩ => some v
  | _ => none

end Reader

def read? (text : String) : Option Value := do
  let tokens ← tokens text.toList
  let reader ← tokens.foldlM Reader.step Reader.start
  reader.result?

end ApiBindings.Json
