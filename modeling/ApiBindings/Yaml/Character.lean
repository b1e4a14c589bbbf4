/-!
# Characters of a YAML text

Spaces and tabs separate words on a line, and four characters break lines. A line of three dashes
or three dots alone, or with something behind a blank, marks the bounds of a document.
-/

namespace ApiBindings.Yaml

/-- Whether a character may occur in a text. -/
def isAllowed (c : Char) : Bool :=
  c == '\t' || c == '\n' || c == '\r' || (' ' ≤ c && c ≤ '~') || c == '\x85' ||
    ('\xa0' ≤ c && c != '\ufffe' && c != '\uffff')

/-- Whether a character breaks a line. -/
def isBreak (c : Char) : Bool := c == '\n' || c == '\x85' || c == '\u2028' || c == '\u2029'

/-- What a line break stands for. -/
def breakValue (c : Char) : Char := if c == '\x85' then '\n' else c

/-- Whether a character is a space or a tab. -/
def isGap (c : Char) : Bool := c == ' ' || c == '\t'

/-- Whether a character separates words. -/
def isSpacing (c : Char) : Bool := isGap c || isBreak c

/-- Whether a text starts with spacing or is at its end. -/
def atSpacing (cs : List Char) : Bool := cs.head?.all isSpacing

/-- Whether a text starts with a line break or is at its end. -/
def atLineEnd (cs : List Char) : Bool := cs.head?.all isBreak

/-- Whether a text starts with a space or a line break or is at its end. -/
def atSpace (cs : List Char) : Bool := cs.head?.all fun c => c == ' ' || isBreak c

/-- Whether a character may occur in a name. -/
def isNameChar (c : Char) : Bool := c.isAlphanum || c == '-' || c == '_'

/-- Whether a character opens, separates or closes the items of a collection in brackets. -/
def isIndicator (c : Char) : Bool :=
  c == ',' || c == '[' || c == ']' || c == '{' || c == '}'

/-- Whether a line starts with three of the given character and spacing behind them. -/
def startsWithThree (mark : Char) : List Char → Bool
  | a :: b :: c :: rest => a == mark && b == mark && c == mark && atSpacing rest
  | _ => false

/-- Whether a line marks a bound of a document. -/
def startsMarker (line : List Char) : Bool := startsWithThree '-' line || startsWithThree '.' line

/-- The breaks between two lines of a scalar that is folded: a single line feed is a space, one
with further breaks behind it vanishes, and any other break stays. -/
def foldBreaks (first : Char) (later : List Char) : List Char :=
  if first != '\n' then first :: later else if later.isEmpty then [' '] else later

end ApiBindings.Yaml
