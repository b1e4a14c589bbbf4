import ApiBindings.Text.Hexadecimal

/-!
# Property keys

The name of a field is written in an interface declaration as it is when it is an identifier, and
otherwise as a string literal in double quotes. The literal holds printable ASCII characters only:
every other character is written through its 16-bit units, so that one beyond U+FFFF becomes a
surrogate pair.
-/

namespace ApiBindings.Text

/-- Whether a character may start an identifier. -/
def isIdentifierStart (c : Char) : Bool := c.isUpper || c.isLower || c == '_' || c == '$'

/-- Whether a character may follow in an identifier. -/
def isIdentifierPart (c : Char) : Bool := isIdentifierStart c || c.isDigit

/-- Whether a text is an identifier of ASCII letters, digits, `_` and `$`. -/
def isIdentifier : List Char → Bool
  | [] => false
  | c :: cs => isIdentifierStart c && cs.all isIdentifierPart

/-- The escape that names one 16-bit unit. -/
def unitEscape (n : Nat) : List Char := '\\' :: 'u' :: hexDigits 4 n

/-- One character of a string literal. -/
def escapeChar (c : Char) : List Char :=
  if c == '"' then ['\\', '"']
  else if c == '\\' then ['\\', '\\']
  else if c == '\n' then ['\\', 'n']
  else if c == '\r' then ['\\', 'r']
  else if c == '\t' then ['\\', 't']
  else if c == '\x08' then ['\\', 'b']
  else if c == '\x0c' then ['\\', 'f']
  else if ' ' ≤ c && c ≤ '~' then [c]
  else if c.toNat < 0x10000 then unitEscape c.toNat
  else
    unitEscape (0xD800 + (c.toNat - 0x10000) / 0x400) ++
      unitEscape (0xDC00 + (c.toNat - 0x10000) % 0x400)

/-- A text as a string literal in double quotes. -/
def stringLiteral (cs : List Char) : List Char :=
  '"' :: cs.flatMap escapeChar ++ ['"']

/-- The key under which a field of this name is declared. -/
def propertyKey (name : String) : String :=
  if isIdentifier name.toList then name else String.ofList (stringLiteral name.toList)

end ApiBindings.Text
