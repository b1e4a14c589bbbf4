import ApiBindings.Proofs.Document.Entries
import ApiBindings.Proofs.Outcomes
import ApiBindings.Schema.Layer
import Mathlib.Data.List.Forall2

/-!
# What the entries of a schema say

A schema says what it describes in its entries: its kind under `type`, the cases of a union under
`enum`, the members of a record under `properties` and the keys of those that must be there under
`required` (`Reads`). The outermost layer of a schema is the one that its entries say
(`plainLayer_eq_ok_iff`).
-/

namespace ApiBindings.Schema

/-! ## Reading the entries -/

/-- A schema is of a kind: its type says so, or it has no type but properties and is an object. -/
def OfKind (schema : Value) (word : String) : Prop :=
  schema.entry "type" = .text word ∨
    schema.entry "type" = .null ∧ (schema.lookup? "properties").isSome ∧ word = "object"

/-- The keys of the properties that a schema requires, none if they count as false. -/
def Requires (schema : Value) (required : List Scalar) : Prop :=
  (schema.entry "required").Visits (required.map .scalar) ∨
    (schema.entry "required").isTrue = false ∧ required = []

/-- What a schema describes. -/
inductive Reads : Value → Layer → Prop
  | text {schema : Value} (hk : OfKind schema "string") (he : schema.lookup? "enum" = none) :
    Reads schema (.primitive .string)
  | union {schema cases : Value} {items : List Value} {labels : List String}
    (hk : OfKind schema "string") (he : schema.lookup? "enum" = some cases)
    (hv : cases.Visits items) (hl : List.Forall₂ Value.IsWritten items labels) :
    Reads schema (.union labels)
  | integer {schema : Value} (hk : OfKind schema "integer") : Reads schema (.primitive .integer)
  | double {schema : Value} (hk : OfKind schema "number")
    (hf : schema.entry "format" = .text "double") : Reads schema (.primitive .double)
  | float {schema : Value} (hk : OfKind schema "number")
    (hf : schema.entry "format" ≠ .text "double") : Reads schema (.primitive .float)
  | boolean {schema : Value} (hk : OfKind schema "boolean") : Reads schema (.primitive .boolean)
  | array {schema : Value} {items : List (Scalar × Value)} (hk : OfKind schema "array")
    (hi : schema.entry "items" = .mapping items) : Reads schema (.array (.mapping items))
  | map {schema : Value} {values : List (Scalar × Value)} (hk : OfKind schema "object")
    (hp : (schema.entry "properties").isTrue = false)
    (hv : schema.entry "additionalProperties" = .mapping values) :
    Reads schema (.map (.mapping values))
  | record {schema : Value} {properties : List (Scalar × Value)} {required : List Scalar}
    (hk : OfKind schema "object") (hp : (schema.entry "properties").HasEntries properties)
    (hr : Requires schema required)
    (hv : properties = [] → ∀ values, schema.entry "additionalProperties" ≠ .mapping values) :
    Reads schema (.record properties required)

/-! ## Reading a layer -/

section Layer

variable {entries properties : List (Scalar × Value)} {required : List Scalar} {v schema : Value}
  {word word' place : String} {l : Layer}

theorem isText_eq {a b : String} (ha : v.isText a) (hb : v.isText b) : a = b := by
  unfold Value.isText at ha hb
  split at ha
  · simp only [beq_iff_eq] at ha hb
    exact ha.symm.trans hb
  · cases ha

theorem isText_eq_false {a b : String} (ha : v.isText a) (h : a ≠ b) : v.isText b = false := by
  rw [Bool.eq_false_iff]
  exact fun hb => h (isText_eq ha hb)

theorem isText_iff : v.isText word ↔ v = .text word := by
  constructor
  · intro h
    unfold Value.isText at h
    split at h
    · rw [beq_iff_eq.1 h]
    · cases h
  · rintro rfl
    exact beq_self_eq_true word

theorem isMapping_iff : v.isMapping ↔ ∃ entries, v = .mapping entries := by
  cases v <;> simp [Value.isMapping]

theorem entry_mapping (key : String) (entries : List (Scalar × Value)) :
    (Value.mapping entries).entry key = field key entries := rfl

theorem OfKind.unique (h : OfKind schema word) (h' : OfKind schema word') : word = word' := by
  rcases h with h | ⟨h, -, rfl⟩
  · rcases h' with h' | ⟨h', -, rfl⟩
    · exact Scalar.text.inj (Value.scalar.inj (h.symm.trans h'))
    · cases h.symm.trans h'
  · rcases h' with h' | ⟨h', -, rfl⟩
    · cases h.symm.trans h'
    · rfl

theorem isText_kindOf_iff : (kindOf entries).isText word ↔ OfKind (.mapping entries) word := by
  have htype : (Value.mapping entries).entry "type" = field "type" entries := rfl
  rw [OfKind, htype, kindOf]
  simp only [Value.lookup?]
  split
  · rename_i h
    rw [Bool.and_eq_true] at h
    have hnull := Value.eq_null_of_isNull h.1
    rw [isText_iff, Value.scalar.injEq, Scalar.text.injEq, hnull]
    constructor
    · rintro rfl
      exact .inr ⟨rfl, h.2, rfl⟩
    · rintro (hnone | ⟨-, -, rfl⟩)
      · cases hnone
      · rfl
  · rename_i h
    rw [isText_iff]
    refine ⟨.inl, fun hw => hw.resolve_right ?_⟩
    rintro ⟨hnull, hp, -⟩
    exact h (by rw [hnull, hp]; rfl)

theorem labels_eq_ok_iff {labels : List String} :
    Schema.labels v = .ok labels ↔
      ∃ items, v.Visits items ∧ List.Forall₂ Value.IsWritten items labels := by
  have hlabels : ∀ {items : List Value} {labels : List String},
      List.Forall₂ Value.IsWritten items labels ↔ items.map Value.spelling = labels := by
    intro items labels
    rw [← List.forall₂_eq_eq_eq, List.forall₂_map_left_iff]
    exact ⟨fun h => h.imp fun v label hl => hl.1.symm,
      fun h => h.imp fun v label hl => Value.isWritten_iff.2 hl.symm⟩
  simp only [Schema.labels, map_eq_ok, Value.elements_eq_ok_iff, hlabels]

theorem mapM_asKey_eq_ok_iff {items : List Value} {keys : List Scalar} :
    items.mapM Value.asKey = .ok keys ↔ items = keys.map .scalar := by
  constructor
  · intro h
    rw [← List.forall₂_eq_eq_eq, List.forall₂_map_right_iff]
    exact (forall₂_of_mapM h).imp fun v key hv => Value.eq_scalar_of_asKey hv
  · rintro rfl
    induction keys with
    | nil => rfl
    | cons key keys ih =>
      rw [List.map_cons, List.mapM_cons, ih]
      rfl

theorem requiredKeys_eq_ok_iff :
    requiredKeys (field "required" entries) = .ok required ↔
      Requires (.mapping entries) required := by
  change _ ↔ (field "required" entries).Visits _ ∨ (field "required" entries).isTrue = false ∧ _
  generalize field "required" entries = v
  rw [requiredKeys, bind_eq_ok]
  simp only [Value.elements_eq_ok_iff, mapM_asKey_eq_ok_iff, exists_eq_right]
  by_cases ht : v.isTrue
  · rw [Value.orElse, if_pos ht]
    simp [ht]
  · rw [Value.orElse, if_neg ht]
    rw [Bool.not_eq_true] at ht
    constructor
    · intro h
      exact .inr ⟨ht, List.map_eq_nil_iff.1 (h.eq_nil rfl)⟩
    · rintro (h | ⟨-, rfl⟩)
      · rw [h.eq_nil ht]
        exact .items []
      · exact .items []

theorem Reads.of_object (h : Reads schema l) (hk : OfKind schema "object") :
    (∃ values, l = .map (.mapping values) ∧ (schema.entry "properties").isTrue = false ∧
      schema.entry "additionalProperties" = .mapping values) ∨
    ∃ properties required, l = .record properties required ∧
      (schema.entry "properties").HasEntries properties ∧
      Requires schema required ∧
      (properties = [] → ∀ values, schema.entry "additionalProperties" ≠ .mapping values) := by
  cases h with
  | map _ hp hv => exact .inl ⟨_, rfl, hp, hv⟩
  | record _ hp hr hv => exact .inr ⟨_, _, rfl, hp, hr, hv⟩
  | text hk' => exact absurd (hk.unique hk') (by decide)
  | union hk' => exact absurd (hk.unique hk') (by decide)
  | integer hk' => exact absurd (hk.unique hk') (by decide)
  | double hk' => exact absurd (hk.unique hk') (by decide)
  | float hk' => exact absurd (hk.unique hk') (by decide)
  | boolean hk' => exact absurd (hk.unique hk') (by decide)
  | array hk' => exact absurd (hk.unique hk') (by decide)

theorem objectLayer_eq_ok_iff (hk : OfKind (.mapping entries) "object") :
    objectLayer entries = .ok l ↔ Reads (.mapping entries) l := by
  unfold objectLayer
  simp only
  by_cases hc : (!(field "properties" entries).isTrue &&
      (field "additionalProperties" entries).isMapping) = true
  · rw [if_pos hc]
    rw [Bool.and_eq_true, Bool.not_eq_true'] at hc
    obtain ⟨values, hv⟩ := isMapping_iff.1 hc.2
    rw [hv]
    constructor
    · intro h
      cases h
      exact .map hk hc.1 hv
    · intro h
      obtain ⟨values', rfl, -, hv'⟩ | ⟨properties, required, -, hp, -, hnone⟩ := h.of_object hk
      · rw [show values = values' from Value.mapping.inj (hv.symm.trans hv')]
      · exact absurd hv (hnone (hp.eq_nil_iff.2 hc.1) values)
  · rw [if_neg hc]
    rw [Bool.and_eq_true, Bool.not_eq_true', not_and] at hc
    simp only [bind_eq_ok, requiredKeys_eq_ok_iff, Value.entries_of_orElse_eq_ok_iff]
    constructor
    · rintro ⟨required, hr, properties, hp, h⟩
      cases h
      refine .record hk hp hr fun hnil values hv => ?_
      exact hc (hp.eq_nil_iff.1 hnil) (isMapping_iff.2 ⟨values, hv⟩)
    · intro h
      obtain ⟨values, -, hp, hv⟩ | ⟨properties, required, rfl, hp, hr, -⟩ := h.of_object hk
      · exact absurd (isMapping_iff.2 ⟨values, hv⟩) (hc hp)
      · exact ⟨required, hr, properties, hp, rfl⟩

theorem plainLayer_of_object (hk : (kindOf entries).isText "object") (place : String) :
    plainLayer entries place = objectLayer entries := by
  have hs : (kindOf entries).isText "string" = false := isText_eq_false hk (by decide)
  have hi : (kindOf entries).isText "integer" = false := isText_eq_false hk (by decide)
  have hn : (kindOf entries).isText "number" = false := isText_eq_false hk (by decide)
  have hb : (kindOf entries).isText "boolean" = false := isText_eq_false hk (by decide)
  simp [plainLayer, hs, hi, hn, hb, hk]

theorem plainLayer_of_array (hk : (kindOf entries).isText "array") (place : String) :
    plainLayer entries place = if (field "items" entries).isMapping then
      .ok (.array (field "items" entries))
    else .error (.unsupportedSchema "array without items" place) := by
  have hs : (kindOf entries).isText "string" = false := isText_eq_false hk (by decide)
  have hi : (kindOf entries).isText "integer" = false := isText_eq_false hk (by decide)
  have hn : (kindOf entries).isText "number" = false := isText_eq_false hk (by decide)
  have hb : (kindOf entries).isText "boolean" = false := isText_eq_false hk (by decide)
  have ho : (kindOf entries).isText "object" = false := isText_eq_false hk (by decide)
  simp [plainLayer, hs, hi, hn, hb, ho, hk]

/-- The layer of a schema that is no composition is what the schema describes. -/
theorem plainLayer_eq_ok_iff : plainLayer entries place = .ok l ↔ Reads (.mapping entries) l := by
  constructor
  · intro h
    unfold plainLayer at h
    simp only at h
    split at h
    · rename_i hk
      have hk := isText_kindOf_iff.1 hk
      split at h
      · rename_i cases he
        obtain ⟨labels, hl, rfl⟩ := map_eq_ok.1 h
        obtain ⟨items, hv, hl⟩ := labels_eq_ok_iff.1 hl
        exact .union hk he hv hl
      · rename_i he
        cases h
        exact .text hk he
    split at h
    · cases h
      exact .integer (isText_kindOf_iff.1 ‹_›)
    split at h
    · rename_i hk
      have hk := isText_kindOf_iff.1 hk
      cases h
      split
      · rename_i hf
        exact .double hk (isText_iff.1 hf)
      · rename_i hf
        exact .float hk fun hd => hf (isText_iff.2 hd)
    split at h
    · cases h
      exact .boolean (isText_kindOf_iff.1 ‹_›)
    split at h
    · rename_i hk
      exact (objectLayer_eq_ok_iff (isText_kindOf_iff.1 hk)).1 h
    split at h
    · rename_i hk
      split at h
      · rename_i hm
        cases h
        obtain ⟨items, hi⟩ := isMapping_iff.1 hm
        rw [hi]
        exact .array (isText_kindOf_iff.1 hk) hi
      · cases h
    · cases h
  · intro h
    have hkind : ∀ {word}, OfKind (.mapping entries) word → (kindOf entries).isText word :=
      isText_kindOf_iff.2
    have hother : ∀ {word other}, OfKind (.mapping entries) word → word ≠ other →
        (kindOf entries).isText other = false := fun hk hne => isText_eq_false (hkind hk) hne
    cases h with
    | text hk he =>
      rw [Value.lookup?_mapping] at he
      simp [plainLayer, hkind hk, he]
    | union hk he hv hl =>
      rw [Value.lookup?_mapping] at he
      have hlabels := labels_eq_ok_iff.2 ⟨_, hv, hl⟩
      simp [plainLayer, hkind hk, he, hlabels, Except.map]
    | integer hk => simp [plainLayer, hkind hk, hother hk (show "integer" ≠ "string" by decide)]
    | double hk hf =>
      rw [entry_mapping] at hf
      have hdouble : (field "format" entries).isText "double" := isText_iff.2 hf
      simp [plainLayer, hkind hk, hother hk (show "number" ≠ "string" by decide),
        hother hk (show "number" ≠ "integer" by decide), hdouble]
    | float hk hf =>
      rw [entry_mapping] at hf
      have hfloat : ¬ (field "format" entries).isText "double" := fun h => hf (isText_iff.1 h)
      simp [plainLayer, hkind hk, hother hk (show "number" ≠ "string" by decide),
        hother hk (show "number" ≠ "integer" by decide), hfloat]
    | boolean hk =>
      simp [plainLayer, hkind hk, hother hk (show "boolean" ≠ "string" by decide),
        hother hk (show "boolean" ≠ "integer" by decide),
        hother hk (show "boolean" ≠ "number" by decide)]
    | array hk hi =>
      rw [entry_mapping] at hi
      rw [plainLayer_of_array (hkind hk), hi]
      rfl
    | map hk hp hv =>
      rw [plainLayer_of_object (hkind hk)]
      exact (objectLayer_eq_ok_iff hk).2 (.map hk hp hv)
    | record hk hp hr hv =>
      rw [plainLayer_of_object (hkind hk)]
      exact (objectLayer_eq_ok_iff hk).2 (.record hk hp hr hv)

theorem Reads.exists_entries (h : Reads schema l) : ∃ entries, schema = .mapping entries := by
  have hk : ∃ word, OfKind schema word := by cases h <;> exact ⟨_, ‹_›⟩
  obtain ⟨word, hk⟩ := hk
  cases schema with
  | mapping entries => exact ⟨entries, rfl⟩
  | _ =>
    rcases hk with hk | ⟨-, hp, -⟩
    · cases hk
    · cases hp

theorem Reads.unique {l' : Layer} (h : Reads schema l) (h' : Reads schema l') : l = l' := by
  obtain ⟨entries, rfl⟩ := h.exists_entries
  have hl : plainLayer entries "" = .ok l := plainLayer_eq_ok_iff.2 h
  rw [plainLayer_eq_ok_iff.2 h'] at hl
  exact (Except.ok.inj hl).symm

theorem plainLayer_of_layer (h : layer schema place = .ok l) :
    ∃ entries, schema = .mapping entries ∧
      firstMentioned (.mapping entries) compositions = .ok none ∧
      plainLayer entries place = .ok l := by
  unfold layer at h
  split at h
  · cases h
  · cases h
  · rename_i hm
    cases schema with
    | mapping entries => exact ⟨entries, rfl, hm, h⟩
    | _ => cases h

theorem reads_of_layer (h : layer schema place = .ok l) : Reads schema l := by
  obtain ⟨entries, rfl, -, h⟩ := plainLayer_of_layer h
  exact plainLayer_eq_ok_iff.1 h

end Layer

end ApiBindings.Schema
