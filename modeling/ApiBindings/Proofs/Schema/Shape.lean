import ApiBindings.Proofs.Outcomes
import ApiBindings.Proofs.Schema.Reachable

/-!
# Schemas of the right shape

The conversion of a schema looks at some keys only, and at each of them it asks for a value of some
kind. A schema has the right shape if it has such values at these keys, as have the schemas in it
(`SchemaShaped`); everything else in it may be any value. References count by what they lead to, so
that the components of the document must have the right shape too (`ComponentsShaped`).

A step is orderly if it fails with expected faults only (`Orderly`). The conversion of a schema of
the right shape is orderly, whatever is on the stack (`orderly_convertAt`): all that it goes on to
has the right shape again.
-/

namespace ApiBindings

/-! ## Orderly steps -/

/-- Whether a fault tells what is wrong with a document of the right shape, or with the settings. -/
def Fault.isExpected : Fault → Bool
  | .invalid _ | .documentNotList | .obsoleteDocument | .unknownDocument
  | .unresolvableReference _ | .unsupportedSchema _ _ | .missingOperationId _ _
  | .conflictingType _ | .unknownLanguage _ => true
  | _ => false

/-- A step fails with expected faults only. -/
def Orderly {α : Type} (step : Except Fault α) : Prop := ∀ f, step = .error f → f.isExpected

namespace Orderly

variable {α β : Type} {step : Except Fault α} {f : Fault}

theorem of_ok {a : α} (h : step = .ok a) : Orderly step := FailsOnly.of_ok h

theorem of_expected (h : f.isExpected) : Orderly (.error f : Except Fault α) := FailsOnly.of_error h

theorem bind {next : α → Except Fault β} (h : Orderly step)
    (hnext : ∀ a, step = .ok a → Orderly (next a)) : Orderly (step >>= next) :=
  FailsOnly.bind h hnext

theorem mapM {g : α → Except Fault β} {as : List α} (h : ∀ a ∈ as, Orderly (g a)) :
    Orderly (as.mapM g) := FailsOnly.mapM h

theorem toExcept (c : Checked α) : Orderly c.toExcept := by
  cases c with
  | valid a => exact of_ok rfl
  | flawed violations => exact of_expected rfl

end Orderly

/-! ## Values that may be left out -/

namespace Value

/-- Null, or a mapping whose entries have a shape. -/
def NullOrMapping (shape : List (Scalar × Value) → Prop) : Value → Prop
  | .null => True
  | .mapping entries => shape entries
  | _ => False

/-- Null, or a list whose items have a shape. -/
def NullOrList (shape : Value → Prop) : Value → Prop
  | .null => True
  | .list items => ∀ item ∈ items, shape item
  | _ => False

/-- A text. -/
def IsText (v : Value) : Prop := ∃ s, v = .text s

variable {v : Value} {key : Scalar}

theorem NullOrMapping.null_or {shape : List (Scalar × Value) → Prop} (h : v.NullOrMapping shape) :
    v = .null ∨ ∃ entries, v = .mapping entries ∧ shape entries := by
  unfold NullOrMapping at h
  split at h
  · exact .inl rfl
  · exact .inr ⟨_, rfl, h⟩
  · cases h

theorem NullOrMapping.orElse_eq {shape : List (Scalar × Value) → Prop} (h : v.NullOrMapping shape)
    (hnil : shape []) : ∃ entries, v.orElse (.mapping []) = .mapping entries ∧ shape entries := by
  rcases h.null_or with rfl | ⟨entries, rfl, hshape⟩
  · exact ⟨[], rfl, hnil⟩
  · cases entries with
    | nil => exact ⟨[], rfl, hnil⟩
    | cons entry entries => exact ⟨entry :: entries, rfl, hshape⟩

theorem NullOrList.orElse_eq {shape : Value → Prop} (h : v.NullOrList shape) :
    ∃ items, v.orElse (.list []) = .list items ∧ ∀ item ∈ items, shape item := by
  unfold NullOrList at h
  split at h
  · exact ⟨[], rfl, by simp⟩
  · rename_i items
    cases items with
    | nil => exact ⟨[], rfl, h⟩
    | cons item items => exact ⟨item :: items, rfl, h⟩
  · cases h

theorem exists_mem_of_valueAt? {entries : List (Scalar × Value)}
    (h : valueAt? key entries = some v) : ∃ e ∈ entries, e.2 = v := by
  rw [valueAt?, List.lookup_eq_findSome?] at h
  obtain ⟨e, he, hv⟩ := List.exists_of_findSome?_eq_some h
  split at hv
  · exact ⟨e, he, Option.some.inj hv⟩
  · cases hv

end Value

namespace Schema

open Value (NullOrMapping NullOrList IsText)

/-! ## Shapes -/

/-- A schema with values of the right kinds where the conversion looks at it. -/
inductive SchemaShaped : Value → Prop
  | mapping {entries : List (Scalar × Value)}
    (properties : (field "properties" entries).NullOrMapping fun properties =>
      ∀ property ∈ properties, (Value.scalar property.1).IsText)
    (required : (field "required" entries).NullOrList IsText)
    (cases : ∀ v, Value.valueAt? (.text "enum") entries = some v → ∃ items, v = .list items)
    (property : ∀ properties, field "properties" entries = .mapping properties →
      ∀ property ∈ properties, SchemaShaped property.2)
    (items : (field "items" entries).isMapping → SchemaShaped (field "items" entries))
    (values : (field "additionalProperties" entries).isMapping →
      SchemaShaped (field "additionalProperties" entries)) :
    SchemaShaped (.mapping entries)

/-- A document whose components, if it has any, have the right shape. -/
def ComponentsShaped (document : List (Scalar × Value)) : Prop :=
  (field "components" document).NullOrMapping fun components =>
    (field "schemas" components).NullOrMapping fun schemas => ∀ e ∈ schemas, SchemaShaped e.2

section Shaped

variable {document entries table : List (Scalar × Value)} {position schema v : Value}
  {place name : String} {l : Layer}

theorem SchemaShaped.exists_entries (h : SchemaShaped v) : ∃ entries, v = .mapping entries := by
  cases h
  exact ⟨_, rfl⟩

/-! ## References -/

theorem exists_componentTable {shape : List (Scalar × Value) → Prop} (hnil : shape [])
    (h : (field "components" document).NullOrMapping fun components =>
      (field "schemas" components).NullOrMapping shape) :
    ∃ table, componentTable (.mapping document) = .ok table ∧ shape table := by
  obtain ⟨components, hc, h⟩ := h.orElse_eq trivial
  obtain ⟨schemas, hs, h⟩ := h.orElse_eq hnil
  have htable : componentTable (.mapping document) =
      ((field "components" document).orElse (.mapping [])).get "schemas" >>= fun schemas =>
        (schemas.orElse (.mapping [])).entries := rfl
  refine ⟨schemas, ?_, h⟩
  rw [htable, hc]
  change ((field "schemas" components).orElse (.mapping [])).entries = .ok schemas
  rw [hs]
  rfl

theorem componentTable_of_shaped (h : ComponentsShaped document) :
    ∃ table, componentTable (.mapping document) = .ok table ∧ ∀ e ∈ table, SchemaShaped e.2 :=
  exists_componentTable (by simp) h

theorem shaped_of_follow {fuel : Nat} (ht : ∀ e ∈ table, SchemaShaped e.2)
    (h : Reference.follow table fuel name = some entries) : SchemaShaped (.mapping entries) := by
  induction fuel generalizing name with
  | zero => cases h
  | succ fuel ih =>
    rw [Reference.follow] at h
    split at h
    · rename_i hv
      split at h
      · cases h
        obtain ⟨e, he, heq⟩ := Value.exists_mem_of_valueAt? hv
        exact heq ▸ ht e he
      · split at h
        · exact ih h
        · cases h
    · cases h

/-- A position of the right shape can be resolved, perhaps to nothing, and what it leads to has the
right shape. -/
theorem resolve_of_shaped (hc : ComponentsShaped document) (hs : SchemaShaped position) :
    ∃ found, resolve (.mapping document) position = .ok found ∧
      ∀ r, found = some r → SchemaShaped r.schema := by
  obtain ⟨entries, rfl⟩ := hs.exists_entries
  cases hv : Value.valueAt? (.text "$ref") entries with
  | none =>
    refine ⟨_, resolve_of_no_ref hv, fun r hr => ?_⟩
    cases hr
    exact hs
  | some target =>
    cases ht : Reference.ofValue? target with
    | none =>
      refine ⟨none, ?_, nofun⟩
      simp [resolve, Value.item, hv, ht, bind, Except.bind, pure, Except.pure]
    | some reference =>
      obtain ⟨table, htable, hshaped⟩ := componentTable_of_shaped hc
      have hfollow : reference.resolve (.mapping document) =
          .ok ((Reference.follow table table.length reference.name).map Value.mapping) := by
        rw [Reference.resolve, htable]
        rfl
      refine ⟨(Reference.follow table table.length reference.name).map fun entries =>
        ⟨.mapping entries, some reference.name⟩, ?_, fun r hr => ?_⟩
      · simp [resolve, Value.item, hv, ht, hfollow, bind, Except.bind, pure, Except.pure,
          Function.comp_def]
      · obtain ⟨entries, hf, rfl⟩ := Option.map_eq_some_iff.1 hr
        exact shaped_of_follow hshaped hf

theorem item_of_unresolved (hs : SchemaShaped position)
    (hr : resolve (.mapping document) position = .ok none) :
    ∃ reference, position.item "$ref" = .ok reference := by
  obtain ⟨entries, rfl⟩ := hs.exists_entries
  cases hv : Value.valueAt? (.text "$ref") entries with
  | none => cases hr.symm.trans (resolve_of_no_ref hv)
  | some target => exact ⟨target, by rw [Value.item, hv]⟩

/-! ## Layers -/

theorem orderly_firstMentioned (words : List String) :
    Orderly (firstMentioned (.mapping entries) words) := by
  induction words with
  | nil => exact .of_ok rfl
  | cons word words ih =>
    rw [firstMentioned, Value.mentions_mapping]
    cases (Value.valueAt? (.text word) entries).isSome with
    | true => exact .of_ok rfl
    | false => exact ih

theorem orderly_requiredKeys (h : v.NullOrList IsText) : Orderly (requiredKeys v) := by
  obtain ⟨items, hv, hitems⟩ := h.orElse_eq
  rw [requiredKeys, hv]
  refine Orderly.bind (.of_ok rfl) fun items' hitems' => ?_
  cases hitems'
  refine .mapM fun item hitem => ?_
  obtain ⟨s, rfl⟩ := hitems item hitem
  exact .of_ok rfl

theorem orderly_objectLayer (h : SchemaShaped (.mapping entries)) :
    Orderly (objectLayer entries) := by
  cases h with
  | mapping properties required cases property items values =>
    unfold objectLayer
    simp only
    split
    · exact .of_ok rfl
    · refine Orderly.bind (orderly_requiredKeys required) fun _ _ => ?_
      obtain ⟨es, hes, -⟩ := properties.orElse_eq (by simp)
      rw [hes]
      exact .of_ok rfl

theorem orderly_plainLayer (h : SchemaShaped (.mapping entries)) (place : String) :
    Orderly (plainLayer entries place) := by
  have hobject := orderly_objectLayer h
  cases h with
  | mapping properties required cases property items values =>
    unfold plainLayer
    simp only
    split
    · split
      · rename_i labelled hlabelled
        obtain ⟨items, rfl⟩ := cases labelled hlabelled
        exact .of_ok rfl
      · exact .of_ok rfl
    split
    · exact .of_ok rfl
    split
    · exact .of_ok rfl
    split
    · exact .of_ok rfl
    split
    · exact hobject
    split
    · split
      · exact .of_ok rfl
      · exact .of_expected rfl
    · exact .of_expected rfl

theorem orderly_layer (h : SchemaShaped schema) (place : String) :
    Orderly (layer schema place) := by
  obtain ⟨entries, rfl⟩ := h.exists_entries
  have hmentioned : Orderly (firstMentioned (.mapping entries) compositions) :=
    orderly_firstMentioned compositions
  unfold layer
  split
  · exact .of_expected (hmentioned _ ‹_›)
  · exact .of_expected rfl
  · exact orderly_plainLayer h place

theorem shaped_of_mem_positions (h : SchemaShaped schema) (hl : layer schema place = .ok l)
    (hv : v ∈ l.positions) : SchemaShaped v := by
  cases h with
  | mapping _ _ _ property items values =>
    cases reads_of_layer hl with
    | text | union | integer | double | float | boolean => cases hv
    | array hk hi =>
      obtain rfl := List.mem_singleton.1 hv
      rw [← hi]
      exact items (isMapping_iff.2 ⟨_, hi⟩)
    | map hk hp hm =>
      obtain rfl := List.mem_singleton.1 hv
      rw [← hm]
      exact values (isMapping_iff.2 ⟨_, hm⟩)
    | record hk hp =>
      obtain ⟨e, he, rfl⟩ := List.mem_map.1 hv
      rcases hp with hp | ⟨-, rfl⟩
      · exact property _ hp e he
      · cases he

/-! ## Conversions -/

theorem orderly_enter {r : Resolved} (h : SchemaShaped r.schema) (stack : Stack) :
    Orderly (stack.enter r) := by
  obtain ⟨entries, hs⟩ := h.exists_entries
  unfold Stack.enter
  split
  · exact .of_ok rfl
  split
  · exact .of_expected rfl
  split
  · exact .of_ok rfl
  rw [hs]
  exact .of_ok rfl

theorem orderly_assemble {convert : (v : Value) → v ∈ l.positions → String → Except Fault Ty}
    (h : ∀ v hv hint, Orderly (convert v hv hint)) (hs : ∀ v ∈ l.positions, SchemaShaped v) :
    Orderly (assemble l place convert) := by
  cases l with
  | primitive p => exact .of_ok rfl
  | union cases => exact .of_ok rfl
  | array items => exact Orderly.bind (h items _ _) fun element _ => .of_ok rfl
  | map values => exact Orderly.bind (h values _ _) fun value _ => .of_ok rfl
  | record properties required =>
    refine Orderly.bind (.mapM fun property _ => ?_) fun members _ => .of_ok rfl
    obtain ⟨⟨key, schema⟩, hp⟩ := property
    obtain ⟨entries, rfl⟩ := (hs schema (List.mem_map_of_mem hp)).exists_entries
    refine Orderly.bind (.of_ok rfl) fun description _ => ?_
    exact Orderly.bind (h _ _ _) fun ty _ => .toExcept _

/-- **Conversions are orderly.** The conversion of a schema of the right shape, in a document whose
components have the right shape, yields a type or fails with an expected fault. -/
theorem orderly_convertAt {position : Value} (hc : ComponentsShaped document)
    (hs : SchemaShaped position) (stack : Stack) (hint : String) :
    Orderly (convertAt (.mapping document) stack position hint) := by
  rw [convertAt_eq, call]
  obtain ⟨found, hfound, hshaped⟩ := resolve_of_shaped hc hs
  refine Orderly.bind (.of_ok hfound) fun found' hr => ?_
  cases hfound.symm.trans hr
  cases found with
  | none =>
    obtain ⟨reference, hreference⟩ := item_of_unresolved hs hfound
    exact Orderly.bind (.of_ok hreference) fun reference _ => .of_expected rfl
  | some r =>
    refine Orderly.bind (orderly_enter (hshaped r rfl) stack) fun entry he => ?_
    cases entry with
    | refersBack name => exact .of_ok rfl
    | inside inner =>
      refine Orderly.bind (orderly_layer (hshaped r rfl) _) fun l hl => ?_
      have hpositions : ∀ v ∈ l.positions, SchemaShaped v := fun v hv =>
        shaped_of_mem_positions (hshaped r rfl) hl hv
      refine Orderly.bind (orderly_assemble (fun v hv hint => ?_) hpositions) fun ty _ => .of_ok rfl
      have := budget_lt hr he hl hv
      exact orderly_convertAt hc (hpositions v hv) inner hint
termination_by budget (.mapping document) stack position
decreasing_by exact this

end Shaped

end Schema

end ApiBindings
