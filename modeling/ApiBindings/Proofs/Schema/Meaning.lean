import ApiBindings.Declarations
import ApiBindings.Proofs.Schema.Entries
import ApiBindings.Proofs.Schema.References
import ApiBindings.Schema.Convert

/-!
# What a schema means

The meaning of a position is how the type there is used in a definition (`Denotes`), and a component
that describes a record or a union means its complete definition (`Complete`). Both are read off the
entries of the document alone. A record or a union counts by its name, so nothing has to be cut off
where components refer back to themselves, and no stack is needed.

A position has one meaning (`Denotes.unique`) and a component one definition
(`Complete.definition_eq`), although many types have that definition.
-/

namespace ApiBindings.Schema

variable {document position : Value} {hint name : String} {r : Resolved}

/-! ## Nominal layers -/

/-- Whether a layer is that of a record or a union. -/
def Layer.isNominal : Layer → Bool
  | union _ => true
  | record _ _ => true
  | _ => false

section Nominal

variable {entries : List (Scalar × Value)} {schema : Value} {place word : String} {l : Layer}

/-- Only objects and texts can be nominal. -/
theorem isNominal_of_kind (hk : OfKind (.mapping entries) word) (ho : word ≠ "object")
    (hs : word ≠ "string") : isNominal (.mapping entries) = .ok false := by
  have hk := isText_kindOf_iff.2 hk
  simp [isNominal, Value.entries, Except.map, isText_eq_false hk ho, isText_eq_false hk hs]

theorem isNominal_of_text (hk : OfKind (.mapping entries) "string") :
    isNominal (.mapping entries) = .ok ((Value.mapping entries).lookup? "enum").isSome := by
  have hk := isText_kindOf_iff.2 hk
  have ho : (kindOf entries).isText "object" = false := isText_eq_false hk (by decide)
  simp [isNominal, Value.entries, Except.map, hk, ho, Value.lookup?]

theorem isNominal_of_object (hk : OfKind (.mapping entries) "object") :
    isNominal (.mapping entries) = .ok ((field "properties" entries).isTrue ||
      !(field "additionalProperties" entries).isMapping) := by
  have hk := isText_kindOf_iff.2 hk
  simp [isNominal, Value.entries, Except.map, hk]

theorem isNominal_of_reads (h : Reads schema l) : isNominal schema = .ok l.isNominal := by
  obtain ⟨entries, rfl⟩ := h.exists_entries
  cases h with
  | text hk he =>
    rw [isNominal_of_text hk, he]
    rfl
  | union hk he =>
    rw [isNominal_of_text hk, he]
    rfl
  | integer hk => exact isNominal_of_kind hk (by decide) (by decide)
  | double hk => exact isNominal_of_kind hk (by decide) (by decide)
  | float hk => exact isNominal_of_kind hk (by decide) (by decide)
  | boolean hk => exact isNominal_of_kind hk (by decide) (by decide)
  | array hk => exact isNominal_of_kind hk (by decide) (by decide)
  | map hk hp hv =>
    rw [entry_mapping] at hp hv
    rw [isNominal_of_object hk, hp, hv]
    rfl
  | record hk hp hr hv =>
    rw [isNominal_of_object hk]
    cases ht : (field "properties" entries).isTrue with
    | true => rfl
    | false =>
      have hno := hv (hp.eq_nil_iff.2 ht)
      have hm : (field "additionalProperties" entries).isMapping = false := by
        rw [Bool.eq_false_iff, ne_eq, isMapping_iff, not_exists]
        exact hno
      rw [hm]
      rfl

theorem isNominal_of_layer (h : layer schema place = .ok l) : isNominal schema = .ok l.isNominal :=
  isNominal_of_reads (reads_of_layer h)

end Nominal

/-! ## The meaning of a position -/

/-- The name of the type that a schema leads to: that of its component, else that of its place. -/
def Resolved.typeName (r : Resolved) (hint : String) : String := r.name.getD (r.place hint)

/-- How the type of the schema at a position is used inside a definition. -/
inductive Denotes (document : Value) : Value → String → Use → Prop
  | primitive {position : Value} {hint : String} {r : Resolved} {p : Primitive}
    (hr : Finds document position r) (hl : Reads r.schema (.primitive p)) :
    Denotes document position hint (.primitive p)
  | array {position items : Value} {hint : String} {r : Resolved} {element : Use}
    (hr : Finds document position r) (hl : Reads r.schema (.array items))
    (h : Denotes document items (r.place hint ++ " item") element) :
    Denotes document position hint (.array element)
  | map {position values : Value} {hint : String} {r : Resolved} {value : Use}
    (hr : Finds document position r) (hl : Reads r.schema (.map values))
    (h : Denotes document values (r.place hint ++ " value") value) :
    Denotes document position hint (.map (.primitive .string) value)
  | nominal {position : Value} {hint : String} {r : Resolved} {l : Layer}
    (hr : Finds document position r) (hl : Reads r.schema l) (hn : l.isNominal) :
    Denotes document position hint (.named (r.typeName hint))

/-- What the schema at a position describes says how the meaning is made up. -/
theorem Denotes.of_reads {l : Layer} {use : Use} (h : Denotes document position hint use)
    (hr : Finds document position r) (hl : Reads r.schema l) :
    match l with
    | .primitive p => use = .primitive p
    | .array items =>
      ∃ element, Denotes document items (r.place hint ++ " item") element ∧ use = .array element
    | .map values =>
      ∃ value, Denotes document values (r.place hint ++ " value") value ∧
        use = .map (.primitive .string) value
    | .union _ | .record _ _ => use = .named (r.typeName hint) := by
  cases h with
  | primitive hr' hl' =>
    obtain rfl := hr.unique hr'
    obtain rfl := hl.unique hl'
    rfl
  | array hr' hl' h =>
    obtain rfl := hr.unique hr'
    obtain rfl := hl.unique hl'
    exact ⟨_, h, rfl⟩
  | map hr' hl' h =>
    obtain rfl := hr.unique hr'
    obtain rfl := hl.unique hl'
    exact ⟨_, h, rfl⟩
  | nominal hr' hl' hn =>
    obtain rfl := hr.unique hr'
    obtain rfl := hl.unique hl'
    cases l with
    | union cases => rfl
    | record properties required => rfl
    | _ => cases hn

theorem Denotes.unique {use use' : Use} (h : Denotes document position hint use)
    (h' : Denotes document position hint use') : use = use' := by
  induction h generalizing use' with
  | primitive hr hl => exact (h'.of_reads hr hl).symm
  | array hr hl h ih =>
    obtain ⟨element, he, rfl⟩ := h'.of_reads hr hl
    rw [ih he]
  | map hr hl h ih =>
    obtain ⟨value, hv, rfl⟩ := h'.of_reads hr hl
    rw [ih hv]
  | @nominal position hint r l hr hl hn =>
    have hu := h'.of_reads hr hl
    cases l with
    | union cases => exact hu.symm
    | record properties required => exact hu.symm
    | _ => cases hn

/-! ## The definition of a component -/

/-- A member says what a property of a record says. It may be left out unless the property is among
those that the record requires. -/
structure Describes (document : Value) (place : String) (required : List Scalar)
    (property : Scalar × Value) (m : Member) : Prop where
  name : property.1 = .text m.name
  description : property.2.entry "description" = Value.ofText? m.description
  isOptional : m.isOptional ↔ .text m.name ∉ required
  use : Denotes document property.2 (place ++ " " ++ m.name) m.ty.use

/-- A type is the complete definition of a component: a record with a member for every property, in
order, or a union with every case. -/
inductive Complete (document : Value) (name : String) : Ty → Prop
  | record {schema : Value} {properties : List (Scalar × Value)} {required : List Scalar}
    {members : List Member} (hs : StandsFor document name schema)
    (hl : Reads schema (.record properties required))
    (hm : List.Forall₂ (Describes document name required) properties members) :
    Complete document name (.record name members)
  | union {schema : Value} {cases : List String} (hs : StandsFor document name schema)
    (hl : Reads schema (.union cases)) : Complete document name (.union name cases)

namespace Complete

variable {ty : Ty}

theorem reads (h : Complete document name ty) : ∃ schema l,
    StandsFor document name schema ∧ Reads schema l ∧ l.isNominal := by
  cases h with
  | record hs hl hm => exact ⟨_, _, hs, hl, rfl⟩
  | union hs hl => exact ⟨_, _, hs, hl, rfl⟩

/-- The complete definition of a schema with properties is no reference back. -/
theorem not_isStub {schema : Value} (h : Complete document name ty)
    (hs : StandsFor document name schema) (hp : (schema.entry "properties").isTrue) :
    ¬ ty.isStub := by
  cases h with
  | record hs' hl hm =>
    obtain rfl := hs.unique hs'
    cases hl with
    | record _ hproperties =>
      cases hm with
      | nil => exact absurd hp (Bool.eq_false_iff.1 (hproperties.eq_nil_iff.1 rfl))
      | cons _ _ => exact Bool.false_ne_true
  | union => exact Bool.false_ne_true

end Complete

/-- What a definition says of a member. -/
def fieldOf (m : Member) : Field := ⟨m.name, m.description, m.isOptional, m.ty.use⟩

theorem ofText?_injective : Function.Injective Value.ofText? := by
  intro a b h
  cases a <;> cases b <;> cases h <;> rfl

theorem Describes.fieldOf_eq {place : String} {required : List Scalar} {property : Scalar × Value}
    {m m' : Member} (h : Describes document place required property m)
    (h' : Describes document place required property m') : fieldOf m = fieldOf m' := by
  have hn : m.name = m'.name := Scalar.text.inj (h.name.symm.trans h'.name)
  have hd : m.description = m'.description :=
    ofText?_injective (h.description.symm.trans h'.description)
  have ho : m.isOptional = m'.isOptional := by
    rw [Bool.eq_iff_iff, h.isOptional, h'.isOptional, hn]
  have hu : m.ty.use = m'.ty.use := h.use.unique (hn ▸ h'.use)
  unfold fieldOf
  rw [hn, hd, ho, hu]

theorem map_fieldOf_eq {place : String} {required : List Scalar}
    {properties : List (Scalar × Value)} {members members' : List Member}
    (h : List.Forall₂ (Describes document place required) properties members)
    (h' : List.Forall₂ (Describes document place required) properties members') :
    members.map fieldOf = members'.map fieldOf := by
  induction h generalizing members' with
  | nil =>
    cases h'
    rfl
  | cons hm _ ih =>
    cases h' with
    | cons hm' h' => rw [List.map_cons, List.map_cons, hm.fieldOf_eq hm', ih h']

theorem Complete.definition_eq {ty ty' : Ty} (h : Complete document name ty)
    (h' : Complete document name ty') : ty.definition = ty'.definition := by
  cases h with
  | record hs hl hm =>
    cases h' with
    | record hs' hl' hm' =>
      obtain rfl := hs.unique hs'
      obtain ⟨rfl, rfl⟩ := Layer.record.inj (hl.unique hl')
      exact congrArg (Definition.record name) (map_fieldOf_eq hm hm')
    | union hs' hl' =>
      obtain rfl := hs.unique hs'
      cases hl.unique hl'
  | union hs hl =>
    cases h' with
    | record hs' hl' hm' =>
      obtain rfl := hs.unique hs'
      cases hl.unique hl'
    | union hs' hl' =>
      obtain rfl := hs.unique hs'
      obtain rfl := Layer.union.inj (hl.unique hl')
      rfl

end ApiBindings.Schema
