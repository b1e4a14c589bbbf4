import ApiBindings.Text.DecimalDigit
import ApiBindings.Text.Split

/-!
# Words of an identifier

Free text such as `getPet response` or `/pets/:id` is read as a row of words. Words are made of
ASCII letters and of decimal digits of any script; everything else only separates. Inside a run of
such characters a new word starts wherever two neighbours do not belong together: digits stay with
digits, lower-case letters with the letter before them, and capitals with capitals, except that the
last capital of a run goes with the lower-case letters that follow it, so that `HTTPServer` is
`HTTP` and `Server`.
-/

namespace ApiBindings.Text

/-- Whether a character can be part of a word. -/
def isWordChar (c : Char) : Bool := c.isUpper || c.isLower || isDecimalDigit c

/-- Whether `c` and the character after it, the first of `rest`, belong to one word. -/
def joins (c : Char) (rest : List Char) : Bool :=
  match rest with
  | [] => false
  | d :: after =>
    if d.isLower then c.isUpper || c.isLower
    else if d.isUpper then c.isUpper && !(after.head?.any Char.isLower)
    else isDecimalDigit c && isDecimalDigit d

/-- The words of a text, in order. -/
def words : List Char → List (List Char)
  | [] => []
  | c :: cs =>
    if isWordChar c then
      if joins c cs then extendFirst c (words cs) else [c] :: words cs
    else words cs

/-- A word with its first letter in upper case and the others in lower case. -/
def capitalize : List Char → List Char
  | [] => []
  | c :: cs => c.toUpper :: cs.map Char.toLower

/-- All words capitalised and written without a break. -/
def pascalCase (s : String) : String :=
  String.ofList ((words s.toList).flatMap capitalize)

/-- The first word in lower case, the others capitalised, all written without a break. -/
def camelCase (s : String) : String :=
  match words s.toList with
  | [] => ""
  | w :: ws => String.ofList (w.map Char.toLower ++ ws.flatMap capitalize)

@[simp] theorem words_nil : words [] = [] := rfl

theorem words_cons_of_not_isWordChar {c : Char} (h : isWordChar c = false) (cs : List Char) :
    words (c :: cs) = words cs := by simp [words, h]

end ApiBindings.Text
