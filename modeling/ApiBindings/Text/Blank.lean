import ApiBindings.Text.Ranges

/-!
# Blank characters

A blank is a white-space character of Unicode or one of the four separators U+001C to U+001F.
Trimming removes characters of a class from both ends of a text and keeps all others.
-/

namespace ApiBindings.Text

def blankRanges : List (Nat × Nat) :=
  [(0x09, 0x0D), (0x1C, 0x20), (0x85, 0x85), (0xA0, 0xA0), (0x1680, 0x1680), (0x2000, 0x200A),
   (0x2028, 0x2029), (0x202F, 0x202F), (0x205F, 0x205F), (0x3000, 0x3000)]

def isBlank (c : Char) : Bool := inRanges blankRanges c.toNat

/-- The text without the characters of a class at its end. -/
def dropTrailing (p : Char → Bool) (cs : List Char) : List Char :=
  (cs.reverse.dropWhile p).reverse

/-- The text without the characters of a class at either end. -/
def trimBy (p : Char → Bool) (cs : List Char) : List Char :=
  dropTrailing p (cs.dropWhile p)

/-- The text without blanks at either end. -/
def trim (cs : List Char) : List Char := trimBy isBlank cs

def isBlankText (s : String) : Bool := s.toList.all isBlank

@[simp] theorem dropTrailing_nil (p : Char → Bool) : dropTrailing p [] = [] := rfl

@[simp] theorem trim_nil : trim [] = [] := rfl

end ApiBindings.Text
