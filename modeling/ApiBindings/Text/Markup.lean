import ApiBindings.Text.Blank
import ApiBindings.Text.Erase

/-!
# Cleaning marked-up text

A description may hold tags. A tag starts with `<`, ends with the first `>` after it and has at
least one character in between. Cleaning removes the tags, then writes every run of blanks as one
space, then trims.
-/

namespace ApiBindings.Text

/-- The length of the tag that a text starts with, zero when it starts with none. -/
def tagLength : List Char → Nat
  | '<' :: c :: cs =>
    if c == '>' then 0
    else
      match lengthThrough '>' cs with
      | 0 => 0
      | n + 1 => n + 3
  | _ => 0

def removeTags (cs : List Char) : List Char := erase tagLength cs

/-- Every run of blanks as a single space. -/
def collapseBlanks : List Char → List Char
  | [] => []
  | c :: cs =>
    if isBlank c then
      if cs.head?.any isBlank then collapseBlanks cs else ' ' :: collapseBlanks cs
    else c :: collapseBlanks cs

/-- A text without tags, with single spaces for its blanks and none at either end. -/
def cleanMarkup (s : String) : String :=
  String.ofList (trim (collapseBlanks (removeTags s.toList)))

end ApiBindings.Text
