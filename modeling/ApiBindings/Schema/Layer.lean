import ApiBindings.Document.Access
import ApiBindings.Document.Spelling
import ApiBindings.Ty

/-!
# The layers of a schema

The outermost layer of a schema says which kind of type it describes and at which positions the
schemas of its parts stand. Compositions of schemas, unknown kinds and arrays without a schema for
their items are not supported. A schema is nominal when it describes a type with a name, that is a
record or a union.
-/

namespace ApiBindings.Schema

/-- The outermost layer of a schema. -/
inductive Layer where
  | primitive (p : Primitive)
  | union (cases : List String)
  | array (items : Value)
  | map (values : Value)
  | record (properties : List (Scalar × Value)) (required : List Scalar)

def Layer.positions : Layer → List Value
  | primitive _ => []
  | union _ => []
  | array items => [items]
  | map values => [values]
  | record properties _ => properties.map (·.2)

/-- The ways of composing schemas, none of which is supported. -/
def compositions : List String := ["allOf", "oneOf", "anyOf", "not"]

/-- The first of some words that a value mentions. -/
def firstMentioned (v : Value) : List String → Except Fault (Option String)
  | [] => .ok none
  | word :: words =>
    match v.mentions word with
    | .error f => .error f
    | .ok true => .ok (some word)
    | .ok false => firstMentioned v words

/-- The value under a key of a schema, null if there is none. -/
def field (key : String) (entries : List (Scalar × Value)) : Value :=
  (Value.valueAt? (.text key) entries).getD .null

/-- The kind of a schema. A schema with properties and without a type is an object. -/
def kindOf (entries : List (Scalar × Value)) : Value :=
  let type := field "type" entries
  if type.isNull && (Value.valueAt? (.text "properties") entries).isSome then .text "object"
  else type

def labels (v : Value) : Except Fault (List String) :=
  v.elements.map fun items => items.map Value.spelling

/-- The keys that a list of required properties holds. -/
def requiredKeys (v : Value) : Except Fault (List Scalar) := do
  (← (v.orElse (.list [])).elements).mapM Value.asKey

/-- The layer of an object: a map if it has no properties but a schema for its values, and a record
otherwise. -/
def objectLayer (entries : List (Scalar × Value)) : Except Fault Layer :=
  let properties := field "properties" entries
  let values := field "additionalProperties" entries
  if !properties.isTrue && values.isMapping then .ok (.map values)
  else do
    let required ← requiredKeys (field "required" entries)
    let properties ← (properties.orElse (.mapping [])).entries
    return .record properties required

/-- The layer of a schema that is no composition. -/
def plainLayer (entries : List (Scalar × Value)) (place : String) : Except Fault Layer :=
  let kind := kindOf entries
  if kind.isText "string" then
    match Value.valueAt? (.text "enum") entries with
    | some cases => (labels cases).map Layer.union
    | none => .ok (.primitive .string)
  else if kind.isText "integer" then .ok (.primitive .integer)
  else if kind.isText "number" then
    .ok (.primitive (if (field "format" entries).isText "double" then .double else .float))
  else if kind.isText "boolean" then .ok (.primitive .boolean)
  else if kind.isText "object" then objectLayer entries
  else if kind.isText "array" then
    let items := field "items" entries
    if items.isMapping then .ok (.array items)
    else .error (.unsupportedSchema "array without items" place)
  else .error (.unsupportedSchema (if kind.isNull then "untyped" else kind.spelling) place)

/-- The outermost layer of a schema; faults name the place of the schema. -/
def layer (schema : Value) (place : String) : Except Fault Layer :=
  match firstMentioned schema compositions with
  | .error f => .error f
  | .ok (some composition) => .error (.unsupportedSchema composition place)
  | .ok none =>
    match schema with
    | .mapping entries => plainLayer entries place
    | _ => misuse .notMapping

/-- Whether a schema describes a record or a union. -/
def isNominal (schema : Value) : Except Fault Bool :=
  schema.entries.map fun entries =>
    let kind := kindOf entries
    if kind.isText "object" then
      (field "properties" entries).isTrue || !(field "additionalProperties" entries).isMapping
    else kind.isText "string" && (Value.valueAt? (.text "enum") entries).isSome

/-! ## Parts are smaller -/

theorem sizeOf_field_lt {key : String} {entries : List (Scalar × Value)}
    (h : (field key entries).isMapping) : sizeOf (field key entries) < sizeOf entries := by
  unfold field at h ⊢
  cases he : Value.valueAt? (.text key) entries with
  | none => simp [he, Value.isMapping] at h
  | some v => simpa using Value.sizeOf_lt_of_valueAt? he

theorem sizeOf_lt_of_mem_objectLayer {entries : List (Scalar × Value)} {l : Layer}
    (h : objectLayer entries = .ok l) {v : Value} (hv : v ∈ l.positions) :
    sizeOf v < sizeOf entries := by
  unfold objectLayer at h
  simp only at h
  split at h
  · rename_i hc
    cases h
    simp only [Layer.positions, List.mem_singleton] at hv
    simp only [Bool.and_eq_true] at hc
    exact hv ▸ sizeOf_field_lt hc.2
  · cases hr : requiredKeys (field "required" entries) with
    | error f => rw [hr] at h; cases h
    | ok required =>
      rw [hr] at h
      cases hp : field "properties" entries with
      | mapping properties =>
        have hlt : sizeOf (field "properties" entries) < sizeOf entries :=
          sizeOf_field_lt (by rw [hp]; rfl)
        rw [hp] at h hlt
        have hl : l = .record properties required := by
          cases properties with
          | nil => cases h; rfl
          | cons e es => cases h; rfl
        subst hl
        simp only [Layer.positions, List.mem_map] at hv
        obtain ⟨e, he, rfl⟩ := hv
        have := List.sizeOf_lt_of_mem he
        obtain ⟨k, w⟩ := e
        simp at *
        omega
      | scalar s =>
        rw [hp] at h
        by_cases ht : (Value.scalar s).isTrue
        · simp [Value.orElse, ht, Value.entries, misuse, bind, Except.bind] at h
        · have hl : l = .record [] required := by
            simp [Value.orElse, ht, bind, Except.bind, pure, Except.pure] at h
            exact h.symm
          simp [hl, Layer.positions] at hv
      | list items =>
        rw [hp] at h
        by_cases ht : (Value.list items).isTrue
        · simp [Value.orElse, ht, Value.entries, misuse, bind, Except.bind] at h
        · have hl : l = .record [] required := by
            simp [Value.orElse, ht, bind, Except.bind, pure, Except.pure] at h
            exact h.symm
          simp [hl, Layer.positions] at hv

theorem sizeOf_lt_of_mem_plainLayer {entries : List (Scalar × Value)} {place : String} {l : Layer}
    (h : plainLayer entries place = .ok l) {v : Value} (hv : v ∈ l.positions) :
    sizeOf v < sizeOf entries := by
  unfold plainLayer at h
  simp only at h
  split at h
  · split at h
    · rename_i labelled _
      cases hl : labels labelled with
      | error f => simp [hl, Except.map] at h
      | ok ls =>
        simp only [hl, Except.map, Except.ok.injEq] at h
        simp [← h, Layer.positions] at hv
    · cases h
      simp [Layer.positions] at hv
  split at h
  · cases h
    simp [Layer.positions] at hv
  split at h
  · cases h
    simp [Layer.positions] at hv
  split at h
  · cases h
    simp [Layer.positions] at hv
  split at h
  · exact sizeOf_lt_of_mem_objectLayer h hv
  split at h
  · split at h
    · rename_i hm
      cases h
      simp only [Layer.positions, List.mem_singleton] at hv
      exact hv ▸ sizeOf_field_lt hm
    · cases h
  · cases h

theorem sizeOf_lt_of_mem_positions {schema : Value} {place : String} {l : Layer}
    (h : layer schema place = .ok l) {v : Value} (hv : v ∈ l.positions) :
    sizeOf v < sizeOf schema := by
  unfold layer at h
  split at h
  · cases h
  · cases h
  · cases schema with
    | mapping entries =>
      have := sizeOf_lt_of_mem_plainLayer h hv
      simp
      omega
    | scalar s => cases h
    | list items => cases h

end ApiBindings.Schema
