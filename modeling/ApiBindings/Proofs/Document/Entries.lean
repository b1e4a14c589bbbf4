import ApiBindings.Checked
import ApiBindings.Document.Access
import ApiBindings.Document.Spelling
import Mathlib.Data.List.Infix

/-!
# Entries of documents

What a document says under a key, told from its entries alone. A key that is left out and one whose
value is null say the same wherever a text may be left out (`ofText?`), and a value that is gone
through is a list of its items, of its keys or of its characters (`Visits`). Where entries may be
left out there are none in a value that counts as false (`HasEntries`).
-/

namespace ApiBindings

namespace Value

/-- The value under a key of a mapping, if it has the key. -/
def lookup? (key : String) : Value → Option Value
  | .mapping entries => valueAt? (.text key) entries
  | _ => none

/-- The value under a key of a mapping, null where there is none. -/
def entry (key : String) (v : Value) : Value := (v.lookup? key).getD .null

/-- A text, null if it is left out. -/
def ofText? : Option String → Value
  | some s => .text s
  | none => .null

/-- What there is to go through in a value. -/
inductive Visits : Value → List Value → Prop
  | items (items : List Value) : Visits (.list items) items
  | keys (entries : List (Scalar × Value)) :
    Visits (.mapping entries) (entries.map fun e => .scalar e.1)
  | characters (s : String) : Visits (.text s) (s.toList.map fun c => .text c.toString)

/-- The entries that a value holds, none if it counts as false. -/
def HasEntries (v : Value) (entries : List (Scalar × Value)) : Prop :=
  v = .mapping entries ∨ v.isTrue = false ∧ entries = []

/-- Whether a value refers to another place: it has the key for that, or mentions the key. -/
def isReference : Value → Bool
  | .mapping entries => (valueAt? (.text "$ref") entries).isSome
  | .list items => items.any (isText "$ref")
  | .text s => decide ("$ref".toList <:+: s.toList)
  | _ => false

/-- How a value is written: a text as it is, any other value by its spelling. -/
def IsWritten (v : Value) (s : String) : Prop := s = v.spelling ∧ ∀ t, v = .text t → s = t

variable {key : String} {v w : Value} {items : List Value} {entries : List (Scalar × Value)}

theorem lookup?_mapping (key : String) (entries : List (Scalar × Value)) :
    (mapping entries).lookup? key = valueAt? (.text key) entries := rfl

theorem entry_of_get (h : v.get key = .ok w) : v.entry key = w := by
  cases v with
  | mapping entries => exact Except.ok.inj h
  | _ => cases h

theorem entry_of_isTrue_eq_false (h : v.isTrue = false) (key : String) : v.entry key = .null := by
  cases v with
  | mapping entries =>
    cases entries with
    | nil => rfl
    | cons e entries => cases h
  | _ => rfl

theorem entry_of_orElse (h : (v.orElse (.mapping [])).get key = .ok w) : v.entry key = w := by
  unfold orElse at h
  split at h
  · exact entry_of_get h
  · rename_i hfalse
    obtain rfl := Except.ok.inj h
    exact entry_of_isTrue_eq_false (Bool.eq_false_iff.2 hfalse) key

theorem lookup?_of_mentions (h : v.mentions key = .ok false) : v.lookup? key = none := by
  cases v with
  | mapping entries => exact Option.not_isSome_iff_eq_none.1 (Bool.eq_false_iff.1 (Except.ok.inj h))
  | _ => rfl

theorem lookup?_of_item (h : v.item key = .ok w) : v.lookup? key = some w := by
  unfold item at h
  split at h
  · split at h
    · rename_i hv
      rw [lookup?, hv, Except.ok.inj h]
    · cases h
  · cases h

theorem elements_eq_ok_iff : v.elements = .ok items ↔ Visits v items := by
  constructor
  · intro h
    unfold elements at h
    split at h
    · obtain rfl := Except.ok.inj h
      exact .items _
    · obtain rfl := Except.ok.inj h
      exact .keys _
    · obtain rfl := Except.ok.inj h
      exact .characters _
    · cases h
  · rintro (_ | _ | _) <;> rfl

theorem Visits.unique {others : List Value} (h : Visits v items) (h' : Visits v others) :
    items = others :=
  Except.ok.inj ((elements_eq_ok_iff.2 h).symm.trans (elements_eq_ok_iff.2 h'))

theorem Visits.eq_nil (h : Visits v items) (hv : v.isTrue = false) : items = [] := by
  cases h with
  | items items => simpa [isTrue] using hv
  | keys entries => simpa [isTrue] using hv
  | characters s => simpa [isTrue, Scalar.isTrue] using hv

theorem entries_of_orElse_eq_ok_iff :
    (v.orElse (.mapping [])).entries = .ok entries ↔ v.HasEntries entries := by
  by_cases ht : v.isTrue
  · rw [orElse, if_pos ht]
    refine ⟨fun h => .inl (eq_mapping_of_entries h), ?_⟩
    rintro (rfl | ⟨hf, -⟩)
    · rfl
    · exact absurd ht (Bool.eq_false_iff.1 hf)
  · rw [orElse, if_neg ht]
    rw [Bool.not_eq_true] at ht
    constructor
    · intro h
      exact .inr ⟨ht, (Except.ok.inj h).symm⟩
    · rintro (rfl | ⟨-, rfl⟩)
      · have hempty : entries = [] := by simpa [isTrue] using ht
        rw [hempty]
        rfl
      · rfl

theorem HasEntries.unique {others : List (Scalar × Value)} (h : v.HasEntries entries)
    (h' : v.HasEntries others) : entries = others :=
  Except.ok.inj
    ((entries_of_orElse_eq_ok_iff.2 h).symm.trans (entries_of_orElse_eq_ok_iff.2 h'))

theorem HasEntries.eq_nil_iff (h : v.HasEntries entries) : entries = [] ↔ v.isTrue = false := by
  rcases h with rfl | ⟨hf, rfl⟩
  · simp [isTrue]
  · exact iff_of_true rfl hf

theorem occursIn_iff {part cs : List Char} : Text.occursIn part cs = true ↔ part <:+: cs := by
  induction cs with
  | nil => simp [Text.occursIn]
  | cons c cs ih =>
    rw [Text.occursIn, Bool.or_eq_true, List.isPrefixOf_iff_prefix, ih, List.infix_cons_iff]

theorem isReference_of_mentions {mentioned : Bool} (h : v.mentions "$ref" = .ok mentioned) :
    v.isReference = mentioned := by
  unfold mentions at h
  split at h
  · exact Except.ok.inj h
  · exact Except.ok.inj h
  · rw [← Except.ok.inj h, Bool.eq_iff_iff, occursIn_iff]
    exact decide_eq_true_iff
  · cases h

theorem isWritten_iff {s : String} : v.IsWritten s ↔ s = v.spelling := by
  refine ⟨And.left, ?_⟩
  rintro rfl
  refine ⟨rfl, ?_⟩
  rintro t rfl
  rfl

theorem checkOptionalText_eq_valid_iff {text : Option String} :
    v.checkOptionalText = .valid text ↔ v = ofText? text := by
  constructor
  · intro h
    unfold checkOptionalText at h
    split at h
    · obtain rfl := Checked.valid.inj h
      rfl
    · obtain rfl := Checked.valid.inj h
      rfl
    · cases h
  · rintro rfl
    cases text with
    | none => rfl
    | some s => rfl

end Value

end ApiBindings
