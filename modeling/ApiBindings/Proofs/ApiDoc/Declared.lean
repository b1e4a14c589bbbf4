import ApiBindings.Proofs.ApiDoc.Branches
import ApiBindings.Proofs.Document.Entries
import ApiBindings.Proofs.Outcomes
import ApiBindings.Proofs.Text.Markup
import Mathlib.Data.List.Forall2

/-!
# What a field declares

A field stands at the path that its name spells (`IsPlaced`). It says under `description` what it is
about (`DescribedAs`) and under `type` of which type it is (`IsOfType`): the name of a type without
the decorations in braces, with a pair of brackets behind it for an array. A primitive type has one
or two words (`wordsFor`), and a text may be narrowed down to the values under `allowedValues`
(`Gives`). All this is read off the entries and the texts in them, and it is what the record of a
list of fields is made from.
-/

namespace ApiBindings.ApiDoc

/-! ## Names -/

/-- A field is placed at the path that its name spells, with dots between the keys. -/
structure IsPlaced (field : Value) (p : Placement) : Prop where
  entries : field = .mapping p.2
  name : field.entry "field" = .text (".".intercalate p.1)
  keys : ∀ key ∈ p.1, '.' ∉ key.toList
  ne_nil : p.1 ≠ []

theorem isPlaced_of_fieldPath {field : Value} {p : Placement} (h : fieldPath field = .ok p) :
    IsPlaced field p := by
  obtain ⟨v, hv, h⟩ := bind_eq_ok.1 h
  obtain ⟨name, hname, h⟩ := bind_eq_ok.1 h
  obtain ⟨declaration, hentries, h⟩ := bind_eq_ok.1 h
  obtain rfl := Except.ok.inj h
  obtain rfl := Value.eq_text_of_asText hname
  refine ⟨Value.eq_mapping_of_entries hentries, ?_, ?_, ?_⟩
  · rw [Value.entry, Value.lookup?_of_item hv, Text.intercalate_splitText '.' rfl]
    rfl
  · intro key hkey
    obtain ⟨part, hpart, rfl⟩ := List.mem_map.1 hkey
    rw [String.toList_ofList]
    exact Text.not_mem_of_mem_split hpart
  · rw [ne_eq, Text.splitText, List.map_eq_nil_iff]
    exact Text.split_ne_nil '.' name.toList

/-! ## Descriptions -/

/-- The description in a declaration, none where it is left out or nothing remains of it. -/
def DescribedAs (declaration : Declaration) : Option String → Prop
  | some cleaned => cleaned ≠ "" ∧
    ∃ s, Value.entry "description" (.mapping declaration) = .text s ∧ Text.Cleaned s cleaned
  | none => (Value.entry "description" (.mapping declaration)).isTrue = false ∨
    ∃ s, Value.entry "description" (.mapping declaration) = .text s ∧ Text.Cleaned s ""

/-! ## Written types -/

/-- What is left of a text without its decorations: an opening brace is kept only if no closing one
comes behind it. -/
inductive Undecorated : List Char → List Char → Prop
  | nil : Undecorated [] []
  | keep {c cs rest} (h : c = '{' → '}' ∉ cs) (hrest : Undecorated cs rest) :
    Undecorated (c :: cs) (c :: rest)
  | drop {inner cs rest} (h : '}' ∉ inner) (hrest : Undecorated cs rest) :
    Undecorated ('{' :: (inner ++ '}' :: cs)) rest

/-- The type that is written in a text: the name of a base type in any letter case, or of an array
of it. -/
inductive Names (raw : String) : FieldType → Prop
  | single {cs word : List Char} (hu : Undecorated raw.toList cs)
    (ht : Text.Trimmed Text.isBlank cs word) (hb : ¬ ['[', ']'] <:+ word) :
    Names raw ⟨String.ofList (Text.lower word), false⟩
  | array {cs element word : List Char} (hu : Undecorated raw.toList cs)
    (ht : Text.Trimmed Text.isBlank cs (element ++ ['[', ']']))
    (he : Text.Trimmed Text.isBlank element word) :
    Names raw ⟨String.ofList (Text.lower word), true⟩

/-- The type that is written in a declaration, that of a text where it is left out. -/
def IsOfType (declaration : Declaration) (written : FieldType) : Prop :=
  ∃ raw, Names raw written ∧
    (Value.entry "type" (.mapping declaration) = .text raw ∧ raw ≠ "" ∨
      (Value.entry "type" (.mapping declaration)).isTrue = false ∧ raw = "String")

/-- The words for a primitive type. -/
def wordsFor : Primitive → List String
  | .string => ["string"]
  | .boolean => ["boolean", "bool"]
  | .integer => ["integer", "int"]
  | .float => ["float", "number"]
  | .double => ["double"]

/-! ## Types of members -/

/-- A value that is allowed is labelled by how it is written, without quotes around it. -/
def IsCase (v : Value) (label : String) : Prop :=
  ∃ s, v.IsWritten s ∧ Text.Trimmed (fun c => c == '"' || c == '\'') s.toList label.toList

/-- The type that a declaration gives for the word of a base type, at a place and with the keys of
the fields below it. -/
inductive Gives (place : String) (keys : List String) (declaration : Declaration) :
    String → Ty → Prop
  | map (hk : keys = []) :
    Gives place keys declaration "object" (.map (.primitive .string) (.primitive .string))
  | record {members : List Member} (hk : keys ≠ []) :
    Gives place keys declaration "object" (.record place members)
  | primitive {word : String} {p : Primitive} (hp : word ∈ wordsFor p)
    (ha : p = .string → (Value.entry "allowedValues" (.mapping declaration)).isTrue = false) :
    Gives place keys declaration word (.primitive p)
  | union {word : String} {items : List Value} {cases : List String} (hp : word ∈ wordsFor .string)
    (ha : (Value.entry "allowedValues" (.mapping declaration)).isTrue)
    (hv : (Value.entry "allowedValues" (.mapping declaration)).Visits items)
    (hc : List.Forall₂ IsCase items cases) : Gives place keys declaration word (.union place cases)

section Declared

variable {declaration : Declaration} {description : Option String} {cs rest : List Char}
  {raw place : String} {written : FieldType} {keys : List String} {ty : Ty}

theorem describedAs_of_descriptionOf (h : descriptionOf declaration = .ok description) :
    DescribedAs declaration description := by
  obtain ⟨text, htext, h⟩ := bind_eq_ok.1 h
  have hentry : (Value.entry "description" (.mapping declaration)).isTrue = false ∧
        Text.cleanMarkup text = "" ∨
      Value.entry "description" (.mapping declaration) = .text text := by
    rw [Value.orElse] at htext
    split at htext
    · exact .inr (Value.eq_text_of_asSubject htext)
    · rename_i hfalse
      obtain rfl := Except.ok.inj htext
      exact .inl ⟨Bool.eq_false_iff.2 hfalse, rfl⟩
  simp only at h
  split at h
  · rename_i hempty
    obtain rfl := Except.ok.inj h
    rcases hentry with ⟨hfalse, -⟩ | htext
    · exact .inl hfalse
    · exact .inr ⟨text, htext, Text.cleaned_iff.2 hempty.symm⟩
  · rename_i hne
    obtain rfl := Except.ok.inj h
    rcases hentry with ⟨-, hempty⟩ | htext
    · exact absurd hempty hne
    · exact ⟨hne, text, htext, Text.cleaned_iff.2 rfl⟩

theorem erase_decorated {inner : List Char} (h : '}' ∉ inner) (cs : List Char) :
    Text.erase decorationLength ('{' :: (inner ++ '}' :: cs)) = Text.erase decorationLength cs := by
  have hlength : decorationLength (('{' :: (inner ++ ['}'])) ++ cs) =
      ('{' :: (inner ++ ['}'])).length := by
    simp [decorationLength, Text.lengthThrough_append h]
  have herase := Text.erase_append_of_eq_length (List.cons_ne_nil _ _) hlength
  simpa using herase

theorem erase_plain {c : Char} (h : c = '{' → '}' ∉ cs) :
    Text.erase decorationLength (c :: cs) = c :: Text.erase decorationLength cs := by
  apply Text.erase_cons_of_eq_zero
  unfold decorationLength
  split
  · rename_i heq
    obtain ⟨rfl, rfl⟩ := List.cons.inj heq
    rw [Text.lengthThrough_of_not_mem (h rfl)]
  · rfl

theorem undecorated_erase (cs : List Char) : Undecorated cs (Text.erase decorationLength cs) := by
  induction hn : cs.length using Nat.strong_induction_on generalizing cs with
  | _ n ih =>
    subst hn
    cases cs with
    | nil => exact .nil
    | cons c cs =>
      by_cases hplain : c = '{' → '}' ∉ cs
      · rw [erase_plain hplain]
        exact .keep hplain (ih _ (Nat.lt_succ_self _) cs rfl)
      · rw [Classical.not_imp, not_not] at hplain
        obtain ⟨rfl, hmem⟩ := hplain
        obtain ⟨inner, after, rfl, hinner⟩ := List.eq_append_cons_of_mem hmem
        rw [erase_decorated hinner]
        exact .drop hinner (ih _ (by simp; omega) after rfl)

theorem undecorated_iff : Undecorated cs rest ↔ rest = Text.erase decorationLength cs := by
  constructor
  · intro h
    induction h with
    | nil => rfl
    | keep hplain _ ih => rw [erase_plain hplain, ih]
    | drop hinner _ ih => rw [erase_decorated hinner, ih]
  · rintro rfl
    exact undecorated_erase cs

theorem beforeBrackets?_eq_some_iff {element : List Char} :
    beforeBrackets? cs = some element ↔ cs = element ++ ['[', ']'] := by
  constructor
  · intro h
    unfold beforeBrackets? at h
    split at h
    · rename_i rest hr
      obtain rfl := Option.some.inj h
      rw [← List.reverse_inj, hr]
      simp
    · cases h
  · rintro rfl
    simp [beforeBrackets?]

/-- The type that is written in a text is the one that is read. -/
theorem names_iff : Names raw written ↔ written = FieldType.parse raw := by
  constructor
  · intro h
    cases h with
    | single hu ht hb =>
      obtain rfl := undecorated_iff.1 hu
      obtain rfl := Text.trimmed_iff.1 ht
      have hnone : beforeBrackets? (Text.trim (Text.erase decorationLength raw.toList)) = none := by
        rw [Option.eq_none_iff_forall_ne_some]
        intro element he
        exact hb ⟨element, (beforeBrackets?_eq_some_iff.1 he).symm⟩
      simp only [FieldType.parse, hnone]
      rfl
    | array hu ht he =>
      obtain rfl := undecorated_iff.1 hu
      obtain rfl := Text.trimmed_iff.1 he
      have hsome := beforeBrackets?_eq_some_iff.2 (Text.trimmed_iff.1 ht).symm
      have htrim : Text.trim (Text.erase decorationLength raw.toList) =
        Text.trimBy Text.isBlank (Text.erase decorationLength raw.toList) := rfl
      simp only [FieldType.parse, htrim, hsome]
      rfl
  · rintro rfl
    unfold FieldType.parse
    simp only
    split
    · rename_i element he
      refine .array (undecorated_iff.2 rfl) ?_ (Text.trimmed_iff.2 rfl)
      rw [← beforeBrackets?_eq_some_iff.1 he]
      exact Text.trimmed_iff.2 rfl
    · rename_i hnone
      refine .single (undecorated_iff.2 rfl) (Text.trimmed_iff.2 rfl) ?_
      rintro ⟨element, he⟩
      cases hnone.symm.trans (beforeBrackets?_eq_some_iff.2 he.symm)

theorem isOfType_of_writtenType (h : writtenType declaration = .ok raw) :
    IsOfType declaration (FieldType.parse raw) := by
  refine ⟨raw, names_iff.2 rfl, ?_⟩
  rw [writtenType, Value.orElse] at h
  split at h
  · rename_i htrue
    have htext := Value.eq_text_of_asSubject h
    refine .inl ⟨htext, ?_⟩
    rintro rfl
    rw [htext] at htrue
    cases htrue
  · rename_i hfalse
    exact .inr ⟨Bool.eq_false_iff.2 hfalse, (Except.ok.inj h).symm⟩

theorem Names.unique {other : FieldType} (h : Names raw written) (h' : Names raw other) :
    written = other := by
  rw [names_iff.1 h, names_iff.1 h']

theorem IsOfType.unique {other : FieldType} (h : IsOfType declaration written)
    (h' : IsOfType declaration other) : written = other := by
  obtain ⟨raw, hnames, hraw⟩ := h
  obtain ⟨raw', hnames', hraw'⟩ := h'
  have hsame : raw = raw' := by
    rcases hraw with ⟨htext, hne⟩ | ⟨hfalse, rfl⟩
    · rcases hraw' with ⟨htext', -⟩ | ⟨hfalse, -⟩
      · cases htext.symm.trans htext'
        rfl
      · rw [htext] at hfalse
        exact absurd (bne_eq_false_iff_eq.1 hfalse) hne
    · rcases hraw' with ⟨htext, hne⟩ | ⟨-, rfl⟩
      · rw [htext] at hfalse
        exact absurd (bne_eq_false_iff_eq.1 hfalse) hne
      · rfl
  subst hsame
  exact hnames.unique hnames'

theorem primitive?_eq_some_iff {word : String} {p : Primitive} :
    primitive? word = some p ↔ word ∈ wordsFor p := by
  constructor
  · intro h
    have hall : ∀ e ∈ primitiveNames, e.1 ∈ wordsFor e.2 := by decide
    rw [primitive?, List.lookup_eq_findSome?] at h
    obtain ⟨e, he, hp⟩ := List.exists_of_findSome?_eq_some h
    split at hp
    · rename_i hword
      obtain rfl := Option.some.inj hp
      rw [beq_iff_eq.1 hword]
      exact hall e he
    · cases hp
  · intro h
    have hall : ∀ p : Primitive, ∀ word ∈ wordsFor p, primitive? word = some p := by
      intro p
      cases p <;> decide
    exact hall p word h

theorem gives_of_plainType {word : String}
    (h : plainType place word raw declaration = .ok ty) : Gives place keys declaration word ty := by
  obtain ⟨p, hp, h⟩ := bind_eq_ok.1 h
  have hword : word ∈ wordsFor p := by
    rw [← primitive?_eq_some_iff]
    unfold primitiveOf at hp
    split at hp
    · rename_i hsome
      rw [hsome, Except.ok.inj hp]
    · cases hp
  simp only at h
  split at h
  · rename_i hallowed
    rw [Bool.and_eq_true, decide_eq_true_eq] at hallowed
    obtain ⟨htrue, rfl⟩ := hallowed
    obtain ⟨items, hitems, h⟩ := bind_eq_ok.1 h
    obtain rfl := Except.ok.inj h
    refine .union hword htrue (Value.elements_eq_ok_iff.1 hitems) ?_
    rw [List.forall₂_map_right_iff, List.forall₂_same]
    refine fun v _ => ⟨v.spelling, Value.isWritten_iff.2 rfl, Text.trimmed_iff.2 ?_⟩
    rw [unquoted, String.toList_ofList]
  · rename_i hallowed
    obtain rfl := Except.ok.inj h
    refine .primitive hword ?_
    rintro rfl
    show (property "allowedValues" declaration).isTrue = false
    simpa using hallowed

end Declared

end ApiBindings.ApiDoc
