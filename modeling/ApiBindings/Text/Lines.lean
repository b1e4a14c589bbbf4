/-!
# Lines

A text is cut into lines after every line break. A break is one of the characters that end a line
or a page, or a carriage return with the line feed that follows it. A break at the end of a text
starts no further line.
-/

namespace ApiBindings.Text

/-- The code points of characters that break a line. -/
def lineBreaks : List Nat :=
  [0x0A, 0x0B, 0x0C, 0x0D, 0x1C, 0x1D, 0x1E, 0x85, 0x2028, 0x2029]

def isLineBreak (c : Char) : Bool := lineBreaks.contains c.toNat

/-- Every carriage return, alone or with the line feed that follows it, as a line feed. -/
def unifyBreaks : List Char → List Char
  | [] => []
  | '\r' :: cs => if cs.head? == some '\n' then unifyBreaks cs else '\n' :: unifyBreaks cs
  | c :: cs => c :: unifyBreaks cs

/-- The lines of a text whose breaks are single characters; `line` is what has been read of the
first line, the last character first. -/
def linesFrom (line : List Char) : List Char → List (List Char)
  | [] => if line.isEmpty then [] else [line.reverse]
  | c :: cs => if isLineBreak c then line.reverse :: linesFrom [] cs else linesFrom (c :: line) cs

def lines (s : String) : List String :=
  (linesFrom [] (unifyBreaks s.toList)).map String.ofList

end ApiBindings.Text
