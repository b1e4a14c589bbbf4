/-!
# Erasing a pattern

A pattern is given by the length of its match at the start of a text, zero when there is none.
Erasing goes from left to right: a match is dropped and the search goes on behind it, any other
character is kept.
-/

namespace ApiBindings.Text

/-- What erasing leaves of a text whose first `skip` characters belong to a match. -/
def eraseFrom (matchLength : List Char → Nat) (skip : Nat) : List Char → List Char
  | [] => []
  | c :: cs =>
    match skip with
    | skip + 1 => eraseFrom matchLength skip cs
    | 0 =>
      match matchLength (c :: cs) with
      | length + 1 => eraseFrom matchLength length cs
      | 0 => c :: eraseFrom matchLength 0 cs

/-- The text without the matches of a pattern. -/
def erase (matchLength : List Char → Nat) (cs : List Char) : List Char :=
  eraseFrom matchLength 0 cs

@[simp] theorem erase_nil (matchLength : List Char → Nat) : erase matchLength [] = [] := rfl

theorem erase_cons_of_eq_zero {matchLength : List Char → Nat} {c : Char} {cs : List Char}
    (h : matchLength (c :: cs) = 0) :
    erase matchLength (c :: cs) = c :: erase matchLength cs := by
  simp [erase, eraseFrom, h]

theorem eraseFrom_eq (matchLength : List Char → Nat) (skip : Nat) (cs : List Char) :
    eraseFrom matchLength skip cs = erase matchLength (cs.drop skip) := by
  induction cs generalizing skip with
  | nil => rw [List.drop_nil]; rfl
  | cons c cs ih =>
    cases skip with
    | zero => rfl
    | succ skip => exact ih skip

/-- A match at the start is dropped as a whole. -/
theorem erase_append_of_eq_length {matchLength : List Char → Nat} {w cs : List Char} (hw : w ≠ [])
    (h : matchLength (w ++ cs) = w.length) :
    erase matchLength (w ++ cs) = erase matchLength cs := by
  obtain ⟨c, w, rfl⟩ := List.exists_cons_of_ne_nil hw
  rw [List.cons_append, List.length_cons] at h
  rw [List.cons_append, erase, eraseFrom, h]
  dsimp only
  rw [eraseFrom_eq, List.drop_left]

/-- How many characters a text takes up to and including the first `stop`, zero when there is
none. -/
def lengthThrough (stop : Char) (cs : List Char) : Nat :=
  match cs.findIdx? (· == stop) with
  | some i => i + 1
  | none => 0

theorem findIdx?_beq_of_not_mem {stop : Char} {cs : List Char} (h : stop ∉ cs) :
    cs.findIdx? (· == stop) = none := by
  rw [List.findIdx?_eq_none_iff]
  intro c hc
  exact beq_eq_false_iff_ne.2 fun he => h (he ▸ hc)

theorem lengthThrough_of_not_mem {stop : Char} {cs : List Char} (h : stop ∉ cs) :
    lengthThrough stop cs = 0 := by
  rw [lengthThrough, findIdx?_beq_of_not_mem h]

theorem lengthThrough_append {stop : Char} {w : List Char} (h : stop ∉ w) (cs : List Char) :
    lengthThrough stop (w ++ stop :: cs) = w.length + 1 := by
  rw [lengthThrough, List.findIdx?_append, findIdx?_beq_of_not_mem h]
  simp [List.findIdx?_cons]

end ApiBindings.Text
