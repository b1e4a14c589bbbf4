import ApiBindings.Text.Erase

/-!
# Terminal sequences

A message that is not shown on a terminal is written without colour and cursor sequences. Such a
sequence is an escape character, `[`, any number of digits, `;` and `?`, and a closing ASCII letter.
-/

namespace ApiBindings.Text

/-- Whether a character may stand between the opening and the closing letter of a sequence. -/
def isSequenceArgument (c : Char) : Bool := c == ';' || c == '?' || c.isDigit

/-- The length of the sequence that a text starts with, zero when it starts with none. -/
def sequenceLength : List Char → Nat
  | '\x1b' :: '[' :: cs =>
    let arguments := cs.takeWhile isSequenceArgument
    if (cs.drop arguments.length).head?.any Char.isAlpha then arguments.length + 3 else 0
  | _ => 0

/-- A message without terminal sequences. -/
def plain (s : String) : String := String.ofList (erase sequenceLength s.toList)

end ApiBindings.Text
