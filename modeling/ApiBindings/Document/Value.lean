import ApiBindings.Decimal.Layout
import ApiBindings.Table

/-!
# Parsed documents

A document is a tree of lists and mappings over scalars. The keys of a mapping are scalars, kept in
order. Keys are compared by what they stand for: the numbers `1` and `1.0` and the truth value
`true` are one key, and no key equals a NaN.
-/

namespace ApiBindings

/-- A calendar date. -/
structure Date where
  year : Nat
  month : Nat
  day : Nat
  deriving DecidableEq, Repr

/-- A value without parts. -/
inductive Scalar where
  | null
  | bool (b : Bool)
  | int (n : Int)
  | float (x : Decimal.Binary64)
  | text (s : String)
  | date (d : Date)
  deriving Repr

namespace Scalar

/-- Whether two scalars of the same kind hold the same datum. -/
def sameDatum : Scalar → Scalar → Bool
  | .null, .null => true
  | .bool a, .bool b => a == b
  | .int a, .int b => a == b
  | .float a, .float b => a == b && !a.isNaN
  | .text a, .text b => a == b
  | .date a, .date b => a == b
  | _, _ => false

/-- The integer that a truth value or a whole number stands for; any other scalar itself. -/
def standard : Scalar → Scalar
  | .bool b => .int (if b then 1 else 0)
  | .float x => (x.toInt?.map Scalar.int).getD (.float x)
  | s => s

/-- Scalars are equal when they stand for the same thing. -/
instance : BEq Scalar := ⟨fun a b => a.standard.sameDatum b.standard⟩

/-- Whether a scalar counts as true: not null, false, zero or the empty text. -/
def isTrue : Scalar → Bool
  | .null => false
  | .bool b => b
  | .int n => n != 0
  | .float x => !x.isZero
  | .text s => s != ""
  | .date _ => true

@[simp] theorem text_beq_text (a b : String) : (text a == text b) = (a == b) := rfl

theorem text_beq_comm (name : String) (k : Scalar) : (text name == k) = (k == text name) := by
  cases k with
  | text s =>
    rw [text_beq_text, text_beq_text]
    exact Bool.beq_comm
  | float x =>
    change sameDatum _ ((x.toInt?.map int).getD (float x)) =
      sameDatum ((x.toInt?.map int).getD (float x)) _
    cases x.toInt? with
    | none => rfl
    | some n => rfl
  | _ => rfl

theorem beq_text_iff {name : String} {k : Scalar} : (k == text name) = true ↔ k = text name := by
  constructor
  · intro h
    cases k with
    | text s =>
      rw [text_beq_text, beq_iff_eq] at h
      rw [h]
    | float x =>
      change sameDatum ((x.toInt?.map int).getD (float x)) (text name) = true at h
      cases hx : x.toInt? with
      | none => rw [hx] at h; cases h
      | some n => rw [hx] at h; cases h
    | _ => cases h
  · rintro rfl
    rw [text_beq_text, beq_self_eq_true]

end Scalar

/-- A parsed document, or a part of one. -/
inductive Value where
  | scalar (s : Scalar)
  | list (items : List Value)
  | mapping (entries : List (Scalar × Value))
  deriving Repr

namespace Value

@[match_pattern] abbrev null : Value := .scalar .null
@[match_pattern] abbrev bool (b : Bool) : Value := .scalar (.bool b)
@[match_pattern] abbrev int (n : Int) : Value := .scalar (.int n)
@[match_pattern] abbrev float (x : Decimal.Binary64) : Value := .scalar (.float x)
@[match_pattern] abbrev text (s : String) : Value := .scalar (.text s)

/-- Whether a value counts as true: a true scalar, or a collection that is not empty. -/
def isTrue : Value → Bool
  | .scalar s => s.isTrue
  | .list items => !items.isEmpty
  | .mapping entries => !entries.isEmpty

def isNull : Value → Bool
  | .scalar .null => true
  | _ => false

theorem eq_null_of_isNull {v : Value} (h : v.isNull) : v = null := by
  unfold isNull at h
  split at h
  · rfl
  · cases h

def isMapping : Value → Bool
  | .mapping _ => true
  | _ => false

def isText (s : String) : Value → Bool
  | .text t => t == s
  | _ => false

/-- The value itself if it counts as true, and otherwise the other one. -/
def orElse (v other : Value) : Value := if v.isTrue then v else other

def valueAt? (key : Scalar) (entries : List (Scalar × Value)) : Option Value := entries.lookup key

theorem sizeOf_lt_of_valueAt? {key : Scalar} {entries : List (Scalar × Value)} {v : Value}
    (h : valueAt? key entries = some v) : sizeOf v < sizeOf entries := by
  induction entries with
  | nil => simp [valueAt?] at h
  | cons e rest ih =>
    obtain ⟨k, w⟩ := e
    rw [valueAt?, List.lookup_cons] at h
    split at h
    · cases h
      simp
      omega
    · have := ih h
      simp
      omega

theorem mem_of_valueAt? {name : String} {table : List (Scalar × Value)} {v : Value}
    (h : valueAt? (.text name) table = some v) : ∃ e ∈ table, e.1 = .text name := by
  induction table with
  | nil => simp [valueAt?] at h
  | cons e rest ih =>
    obtain ⟨k, w⟩ := e
    rw [valueAt?, List.lookup_cons] at h
    split at h
    · rename_i hk
      rw [Scalar.text_beq_comm, Scalar.beq_text_iff] at hk
      exact ⟨(k, w), List.mem_cons_self, hk⟩
    · obtain ⟨e, he, hk⟩ := ih h
      exact ⟨e, List.mem_cons_of_mem _ he, hk⟩

theorem valueAt?_put (name : String) (key : Scalar) (v : Value)
    (table : List (Scalar × Value)) :
    valueAt? (.text name) (Table.put key v table) =
      if key == .text name then some v else valueAt? (.text name) table := by
  unfold valueAt? Table.put
  induction table with
  | nil =>
    rw [Table.update, List.lookup_cons, Scalar.text_beq_comm]
    cases key == .text name with
    | true => rfl
    | false => rfl
  | cons e table ih =>
    obtain ⟨k, w⟩ := e
    rw [Table.update, List.lookup_cons]
    by_cases hname : (key == .text name) = true
    · obtain rfl := Scalar.beq_text_iff.1 hname
      rw [if_pos hname] at ih ⊢
      cases hk : Scalar.text name == k with
      | true =>
        rw [if_pos rfl, List.lookup_cons, hk]
      | false =>
        rw [if_neg Bool.false_ne_true, List.lookup_cons, hk]
        exact ih
    · rw [if_neg hname] at ih ⊢
      by_cases hk : (key == k) = true
      · have hother : (Scalar.text name == k) = false := by
          rw [Scalar.text_beq_comm, ← Bool.not_eq_true]
          intro hk'
          obtain rfl := Scalar.beq_text_iff.1 hk'
          exact hname hk
        rw [if_pos hk, List.lookup_cons, hother]
      · rw [if_neg hk, List.lookup_cons, ih]

theorem isText_scalar (name : String) (key : Scalar) :
    (Value.scalar key).isText name = (key == .text name) := by
  rw [Bool.eq_iff_iff, Scalar.beq_text_iff]
  cases key with
  | text s => simp [Value.isText]
  | _ => simp [Value.isText]

end Value

end ApiBindings
