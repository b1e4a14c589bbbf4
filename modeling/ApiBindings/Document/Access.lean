import ApiBindings.Document.Value
import ApiBindings.Fault

/-!
# Looking into a document

Each way of looking into a value fits some kinds of values only. Reading an entry asks for a
mapping; a search finds a key of a mapping, an item of a list or a part of a text; going through a
value visits the keys of a mapping, the items of a list or the characters of a text; a key must be
a scalar.
-/

namespace ApiBindings

/-- A fault about the shape of a value. -/
def misuse {α : Type} (m : Misuse) : Except Fault α := .error (.misuse m)

section Steps

variable {α β : Type} {outcome : Except Fault α} {next : α → Except Fault β} {b : β}

/-- Two steps go through if the first does and the second does with what the first yields. -/
theorem bind_eq_ok : outcome >>= next = .ok b ↔ ∃ a, outcome = .ok a ∧ next a = .ok b := by
  cases outcome with
  | error f => simp [bind, Except.bind]
  | ok a => simp [bind, Except.bind]

theorem map_eq_ok {f : α → β} : outcome.map f = .ok b ↔ ∃ a, outcome = .ok a ∧ f a = b := by
  cases outcome with
  | error e => simp [Except.map]
  | ok a => simp [Except.map]

end Steps

namespace Text

def occursIn (part : List Char) : List Char → Bool
  | [] => part.isEmpty
  | c :: cs => part.isPrefixOf (c :: cs) || occursIn part cs

end Text

namespace Value

def entries : Value → Except Fault (List (Scalar × Value))
  | .mapping entries => .ok entries
  | _ => misuse .notMapping

/-- The value under a key of a mapping, if the key is there. -/
def find? (key : String) (v : Value) : Except Fault (Option Value) :=
  v.entries.map (valueAt? (.text key))

/-- The value under a key of a mapping, null if the key is not there. -/
def get (key : String) (v : Value) : Except Fault Value :=
  (v.find? key).map (·.getD null)

/-- The value under a key that must be there. -/
def item (key : String) : Value → Except Fault Value
  | .mapping entries =>
    match valueAt? (.text key) entries with
    | some v => .ok v
    | none => misuse (.missingEntry key)
  | _ => misuse .notIndexable

/-- Whether a word is a key of a mapping, an item of a list or a part of a text. -/
def mentions (word : String) : Value → Except Fault Bool
  | .mapping entries => .ok (valueAt? (.text word) entries).isSome
  | .list items => .ok (items.any (isText word))
  | .text s => .ok (Text.occursIn word.toList s.toList)
  | _ => misuse .notSearchable

/-- What a walk through a value visits. -/
def elements : Value → Except Fault (List Value)
  | .list items => .ok items
  | .mapping entries => .ok (entries.map fun e => .scalar e.1)
  | .text s => .ok (s.toList.map fun c => .text c.toString)
  | _ => misuse .notIterable

/-- The scalar that a value is; only scalars can be keys. -/
def asKey : Value → Except Fault Scalar
  | .scalar s => .ok s
  | _ => misuse .notHashable

def asText : Value → Except Fault String
  | .text s => .ok s
  | _ => misuse .notText

/-- The text that a value is, where a pattern is to be matched against it. -/
def asSubject : Value → Except Fault String
  | .text s => .ok s
  | _ => misuse .notMatchable

@[simp] theorem entries_mapping (es : List (Scalar × Value)) :
    (mapping es).entries = .ok es := rfl

theorem eq_mapping_of_entries {v : Value} {es : List (Scalar × Value)} (h : v.entries = .ok es) :
    v = .mapping es := by
  cases v with
  | mapping es' => rw [Except.ok.inj h]
  | _ => cases h

theorem eq_scalar_of_asKey {v : Value} {key : Scalar} (h : v.asKey = .ok key) :
    v = .scalar key := by
  cases v with
  | scalar s => rw [Except.ok.inj h]
  | _ => cases h

theorem eq_text_of_asText {v : Value} {s : String} (h : v.asText = .ok s) : v = .text s := by
  unfold asText at h
  split at h
  · rw [Except.ok.inj h]
  · cases h

theorem eq_text_of_asSubject {v : Value} {s : String} (h : v.asSubject = .ok s) : v = .text s := by
  unfold asSubject at h
  split at h
  · rw [Except.ok.inj h]
  · cases h

@[simp] theorem get_mapping (key : String) (es : List (Scalar × Value)) :
    (mapping es).get key = .ok ((valueAt? (.text key) es).getD null) := rfl

theorem get_of_item {key : String} {v w : Value} (h : v.item key = .ok w) : v.get key = .ok w := by
  unfold item at h
  split at h
  · split at h
    · rename_i hat
      obtain rfl := Except.ok.inj h
      rw [get_mapping, hat]
      rfl
    · cases h
  · cases h

theorem item_of_get {key : String} {v w : Value} (h : v.get key = .ok w) (hw : w.isNull = false) :
    v.item key = .ok w := by
  cases v with
  | mapping es =>
    rw [get_mapping] at h
    rw [item]
    cases hat : valueAt? (.text key) es with
    | none =>
      rw [hat] at h
      obtain rfl := Except.ok.inj h
      cases hw
    | some found =>
      rw [hat] at h
      exact h
  | _ => cases h

@[simp] theorem mentions_mapping (word : String) (es : List (Scalar × Value)) :
    (mapping es).mentions word = .ok (valueAt? (.text word) es).isSome := rfl

end Value

end ApiBindings
