import ApiBindings.Document.Value
import ApiBindings.Text.Quoted

/-!
# How values are spelled

A value has two spellings. On its own a text stands for itself and a date is written with dashes.
Inside a list or a mapping a text is quoted and a date names its parts. Everything else is spelled
alike in both places.
-/

namespace ApiBindings

open Text

/-- A number with zeros in front, up to the given width. -/
def padded (width n : Nat) : String :=
  let digits := toString n
  Decimal.zeros (width - digits.length) ++ digits

namespace Date

/-- The date with four digits for the year and two for month and day. -/
def text (d : Date) : String := s!"{padded 4 d.year}-{padded 2 d.month}-{padded 2 d.day}"

/-- The date as it is spelled inside a list or a mapping. -/
def literal (d : Date) : String := s!"datetime.date({d.year}, {d.month}, {d.day})"

end Date

namespace Scalar

/-- A scalar on its own. -/
def spelling : Scalar → String
  | .null => "None"
  | .bool true => "True"
  | .bool false => "False"
  | .int n => toString n
  | .float x => x.text
  | .text s => s
  | .date d => d.text

/-- A scalar inside a list or a mapping. -/
def literal : Scalar → String
  | .text s => quoted s
  | .date d => d.literal
  | s => s.spelling

end Scalar

/-- Parts one after the other, with a comma and a space in between. -/
def commaSeparated (parts : List String) : String := ", ".intercalate parts

namespace Value

mutual

/-- A value inside a list or a mapping. -/
def literal : Value → String
  | .scalar s => s.literal
  | .list items => "[" ++ commaSeparated (literals items) ++ "]"
  | .mapping entries => "\x7b" ++ commaSeparated (entryLiterals entries) ++ "\x7d"

/-- The values of a list, each as it is spelled inside the list. -/
def literals : List Value → List String
  | [] => []
  | v :: vs => v.literal :: literals vs

/-- The entries of a mapping, each with its key, a colon and its value. -/
def entryLiterals : List (Scalar × Value) → List String
  | [] => []
  | (k, v) :: es => (k.literal ++ ": " ++ v.literal) :: entryLiterals es

end

/-- A value on its own. -/
def spelling : Value → String
  | .scalar s => s.spelling
  | v => v.literal

@[simp] theorem spelling_text (s : String) : spelling (.text s) = s := rfl

end Value

end ApiBindings
