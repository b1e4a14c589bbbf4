/-!
# The start of a text

What is left of a text when it starts in a given way.
-/

namespace ApiBindings.Text

/-- What follows `start` in a text that starts with it. -/
def dropStart? : List Char → List Char → Option (List Char)
  | [], cs => some cs
  | _ :: _, [] => none
  | s :: start, c :: cs => if s == c then dropStart? start cs else none

/-- Exactly the texts that start with `start` have something left. -/
theorem dropStart?_eq_some_iff {start cs rest : List Char} :
    dropStart? start cs = some rest ↔ cs = start ++ rest := by
  induction start generalizing cs with
  | nil => simp [dropStart?, eq_comm]
  | cons s start ih =>
    cases cs with
    | nil => simp [dropStart?]
    | cons c cs =>
      by_cases h : s = c
      · simp [dropStart?, h, ih]
      · simp [dropStart?, h, Ne.symm h]

theorem dropStart?_append (start more cs : List Char) :
    dropStart? (start ++ more) cs = (dropStart? start cs).bind (dropStart? more) := by
  induction start generalizing cs with
  | nil => rfl
  | cons s start ih =>
    cases cs with
    | nil => rfl
    | cons c cs =>
      by_cases h : s = c
      · simp [dropStart?, h, ih]
      · simp [dropStart?, h]

end ApiBindings.Text
