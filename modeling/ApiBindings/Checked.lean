import ApiBindings.Document.Value
import ApiBindings.Fault

/-!
# Checking values

A check either accepts a value or lists its flaws, each with the path to the part that has it. The
flaws of the parts of a value are listed together, in the order of the parts.
-/

namespace ApiBindings

/-- What a check finds. -/
inductive Checked (α : Type) where
  | valid (a : α)
  | flawed (violations : List Violation)

namespace Checked

variable {α β : Type}

/-- Applies a function if neither it nor its argument has a flaw; all flaws are kept. -/
def apply : Checked (α → β) → Checked α → Checked β
  | valid f, valid a => valid (f a)
  | valid _, flawed vs => flawed vs
  | flawed vs, valid _ => flawed vs
  | flawed vs, flawed ws => flawed (vs ++ ws)

instance : Applicative Checked where
  pure := valid
  seq f a := apply f (a ())

/-- A flaw of the checked value itself. -/
def flaw (f : Flaw) : Checked α := flawed [⟨[], f⟩]

/-- The findings about a part, told from the whole. -/
def under (step : Step) : Checked α → Checked α
  | valid a => valid a
  | flawed vs => flawed (vs.map fun v => ⟨step :: v.path, v.flaw⟩)

/-- The accepted value, or the fault that lists the flaws. -/
def toExcept : Checked α → Except Fault α
  | valid a => .ok a
  | flawed vs => .error (.invalid vs)

/-- The findings about the items of a list, each told from the list. -/
def sequence (results : List (Checked α)) (start : Nat) : Checked (List α) :=
  match results with
  | [] => valid []
  | r :: rest => List.cons <$> r.under (.index start) <*> sequence rest (start + 1)

@[simp] theorem toExcept_valid (a : α) : (valid a).toExcept = .ok a := rfl

theorem toExcept_eq_ok {x : Checked α} {a : α} (h : x.toExcept = .ok a) : x = .valid a := by
  cases x with
  | flawed vs => cases h
  | valid a => exact congrArg valid (Except.ok.inj h)

theorem seq_eq_valid {f : Checked (α → β)} {x : Checked α} {b : β} (h : f <*> x = .valid b) :
    ∃ g a, f = .valid g ∧ x = .valid a ∧ b = g a := by
  cases f with
  | flawed vs => cases x <;> cases h
  | valid g =>
    cases x with
    | flawed vs => cases h
    | valid a =>
      cases h
      exact ⟨g, a, rfl, rfl, rfl⟩

theorem map_eq_valid {g : α → β} {x : Checked α} {b : β} (h : g <$> x = .valid b) :
    ∃ a, x = .valid a ∧ b = g a := by
  obtain ⟨_, a, hg, hx, rfl⟩ := seq_eq_valid h
  cases hg
  exact ⟨a, hx, rfl⟩

theorem under_eq_valid {step : Step} {x : Checked α} {a : α} (h : x.under step = .valid a) :
    x = .valid a := by
  cases x with
  | flawed vs => cases h
  | valid a => exact h

end Checked

/-! ## Checks of single values -/

namespace Value

/-- A text. -/
def checkText : Value → Checked String
  | .text s => .valid s
  | _ => .flaw .notText

/-- A text or null. -/
def checkOptionalText : Value → Checked (Option String)
  | .text s => .valid (some s)
  | .null => .valid none
  | _ => .flaw .notText

def trueWords : List String := ["1", "on", "t", "true", "y", "yes"]

def falseWords : List String := ["0", "off", "f", "false", "n", "no"]

/-- A truth value, the number one or zero, or a word for one of them in any ASCII case. -/
def checkBool : Value → Checked Bool
  | .bool b => .valid b
  | .int n => if n = 1 then .valid true else if n = 0 then .valid false else .flaw .unreadableBool
  | .float x =>
    match x.toInt? with
    | some 1 => .valid true
    | some 0 => .valid false
    | _ => .flaw .notBool
  | .text s =>
    let word := String.ofList (s.toList.map Char.toLower)
    if trueWords.contains word then .valid true
    else if falseWords.contains word then .valid false
    else .flaw .unreadableBool
  | _ => .flaw .notBool

/-- The value under a key, checked; a default takes the place of a missing one. -/
def checkField {α : Type} (name : String) (fallback : Option α) (check : Value → Checked α)
    (entries : List (Scalar × Value)) : Checked α :=
  Checked.under (.field name) <|
    match valueAt? (.text name) entries, fallback with
    | some v, _ => check v
    | none, some a => .valid a
    | none, none => .flaw .missing

end Value

end ApiBindings
