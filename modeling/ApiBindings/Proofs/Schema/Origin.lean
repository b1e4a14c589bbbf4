import ApiBindings.Proofs.Outcomes
import ApiBindings.Proofs.Schema.Reachable

/-!
# Where the fault of a conversion comes from

A call of the conversion fails by itself (`Fails`) or because one of its further calls fails, so
that the fault of a conversion comes from one of its calls (`exists_fails`). At a position that is
fit for conversion (`Fit`) a call fails by itself in one way only: it refers to an alias that has
been entered since the last record component (`Fit.mem_aliases`).

That fault says that the alias is recursive. No other step of a call has a fault that says so, but
for a schema whose type is written in these very words (`Fails.mem_aliases_or_written`).
-/

namespace ApiBindings.Schema

/-- What is wrong with an alias that comes back before a record component has been entered. -/
def recursiveAlias : String := "recursive alias"

/-! ## One outcome -/

section Unique

variable {document position schema schema' : Value} {r r' : Resolved} {name : String}

theorem eq_of_resolve (h : resolve document position = .ok (some r))
    (h' : resolve document position = .ok (some r')) : r = r' :=
  Option.some.inj (Except.ok.inj (h.symm.trans h'))

theorem eq_of_resolve_name (h : Reference.resolve document ⟨name⟩ = .ok (some schema))
    (h' : Reference.resolve document ⟨name⟩ = .ok (some schema')) : schema = schema' :=
  Option.some.inj (Except.ok.inj (h.symm.trans h'))

end Unique

/-! ## Faults of single steps -/

section Misused

variable {document position : Value}

theorem misused_componentTable (document : Value) : Misused (componentTable document) := by
  refine (document.misused_get "components").bind fun components _ => ?_
  exact (Value.misused_get "schemas" _).bind fun schemas _ => Value.misused_entries _

theorem misused_resolve (document position : Value) : Misused (resolve document position) := by
  refine (position.misused_mentions "$ref").bind fun mentioned _ => ?_
  cases mentioned with
  | false => exact .of_ok rfl
  | true =>
    refine (position.misused_item "$ref").bind fun target _ => ?_
    split
    · exact .of_ok rfl
    · exact ((misused_componentTable document).bind fun table _ => .of_ok rfl).bind
        fun found _ => .of_ok rfl

theorem misused_isNominal (schema : Value) : Misused (isNominal schema) :=
  schema.misused_entries.map

theorem misused_firstMentioned (v : Value) (words : List String) :
    Misused (firstMentioned v words) := by
  induction words with
  | nil => exact .of_ok rfl
  | cons word words ih =>
    rw [firstMentioned]
    split
    · rename_i f hf
      exact .of_error (v.misused_mentions word f hf)
    · exact .of_ok rfl
    · exact ih

theorem misused_objectLayer (entries : List (Scalar × Value)) : Misused (objectLayer entries) := by
  unfold objectLayer
  simp only
  split
  · exact .of_ok rfl
  · refine FailsOnly.bind ?_ fun required _ => (Value.misused_entries _).bind fun _ _ => .of_ok rfl
    exact (Value.misused_elements _).bind fun items _ => .mapM fun v _ => v.misused_asKey

theorem flaws_of_member_error {key : Scalar} {description : Value} {ty : Ty} {isOptional : Bool}
    {f : Fault} (h : member key description ty isOptional = .error f) :
    ∃ violations, f = .invalid violations := by
  unfold member Checked.toExcept at h
  split at h
  · cases h
  · exact ⟨_, (Except.error.inj h).symm⟩

end Misused

/-! ## Schemas without a layer -/

theorem mem_of_firstMentioned {v : Value} {words : List String} {word : String}
    (h : firstMentioned v words = .ok (some word)) : word ∈ words := by
  induction words with
  | nil => cases h
  | cons first words ih =>
    rw [firstMentioned] at h
    split at h
    · cases h
    · obtain rfl := Option.some.inj (Except.ok.inj h)
      exact List.mem_cons_self
    · exact List.mem_cons_of_mem _ (ih h)

theorem plainLayer_error {entries : List (Scalar × Value)} {place : String} {f : Fault}
    (h : plainLayer entries place = .error f) :
    f.isMisuse ∨ ∃ kind, f = .unsupportedSchema kind place ∧
      (kind = "array without items" ∨ kind = "untyped" ∨ kind = (kindOf entries).spelling) := by
  unfold plainLayer at h
  simp only at h
  split at h
  · split at h
    · exact .inl ((Value.misused_elements _).map.map f h)
    · cases h
  split at h
  · cases h
  split at h
  · cases h
  split at h
  · cases h
  split at h
  · exact .inl (misused_objectLayer entries f h)
  split at h
  · split at h
    · cases h
    · exact .inr ⟨_, (Except.error.inj h).symm, .inl rfl⟩
  · refine .inr ⟨_, (Except.error.inj h).symm, .inr ?_⟩
    split
    · exact .inl rfl
    · exact .inr rfl

/-- The fault of a schema without a layer says that the alias is recursive only if the type of the
schema is written so. -/
theorem spelling_of_layer_error {schema : Value} {place name : String}
    (h : layer schema place = .error (.unsupportedSchema recursiveAlias name)) :
    ∃ entries, schema = .mapping entries ∧ (kindOf entries).spelling = recursiveAlias := by
  unfold layer at h
  split at h
  · rename_i f hf
    obtain rfl := Except.error.inj h
    cases misused_firstMentioned schema compositions _ hf
  · rename_i composition hm
    have hmem := mem_of_firstMentioned hm
    obtain ⟨rfl, -⟩ := Fault.unsupportedSchema.inj (Except.error.inj h)
    exact absurd hmem (by decide)
  · split at h
    · rename_i entries _
      rcases plainLayer_error h with hmisuse | ⟨kind, hf, hkind⟩
      · cases hmisuse
      obtain ⟨rfl, -⟩ := Fault.unsupportedSchema.inj hf
      rcases hkind with hkind | hkind | hkind
      · exact absurd hkind (by decide)
      · exact absurd hkind (by decide)
      · exact ⟨entries, rfl, hkind.symm⟩
    · cases h

/-! ## Calls that fail -/

section Call

variable {document root position v : Value} {stack inner : Stack} {r : Resolved} {l : Layer}
  {place hint name : String} {f : Fault}

/-- The properties in a layer. -/
def Layer.properties : Layer → List (Scalar × Value)
  | record properties _ => properties
  | _ => []

/-- A property is described if its key is a text and its description a text or null. -/
def Described (property : Scalar × Value) : Prop :=
  ∃ name description text, property.1 = .text name ∧
    property.2.get "description" = .ok description ∧ description.checkOptionalText = .valid text

/-- A position is fit for conversion if it leads to a schema that has a layer and describes its
properties. -/
def Fit (document position : Value) : Prop :=
  ∃ r l, resolve document position = .ok (some r) ∧ (∀ place, layer r.schema place = .ok l) ∧
    ∀ property ∈ l.properties, Described property

/-- A member cannot be made of a property. -/
def MemberFails (property : Scalar × Value) (f : Fault) : Prop :=
  property.2.get "description" = .error f ∨
    ∃ description ty isOptional, property.2.get "description" = .ok description ∧
      member property.1 description ty isOptional = .error f

/-- A call fails by itself, and not because one of its further calls does. -/
inductive Fails (document : Value) (stack : Stack) (position : Value) (hint : String) (f : Fault) :
    Prop
  | unread (h : resolve document position = .error f)
  | nowhere (hr : resolve document position = .ok none)
    (h : (position.item "$ref" >>= fun reference =>
      (.error (.unresolvableReference reference.spelling) : Except Fault Ty)) = .error f)
  | refused {r : Resolved} (hr : resolve document position = .ok (some r))
    (h : stack.enter r = .error f)
  | unsupported {r : Resolved} (hr : resolve document position = .ok (some r))
    (h : layer r.schema (r.place hint) = .error f)
  | undescribed {r : Resolved} {l : Layer} {property : Scalar × Value}
    (hr : resolve document position = .ok (some r)) (hl : layer r.schema (r.place hint) = .ok l)
    (hp : property ∈ l.properties) (h : MemberFails property f)

theorem assemble_error {further : Value → String → Except Fault Ty}
    (h : assemble l place (fun v _ hint => further v hint) = .error f) :
    (∃ v ∈ l.positions, ∃ hint, further v hint = .error f) ∨
      ∃ property ∈ l.properties, MemberFails property f := by
  cases l with
  | primitive p => cases h
  | union cases => cases h
  | array items =>
    rcases bind_eq_error.1 h with h | ⟨element, -, h⟩
    · exact .inl ⟨items, List.mem_cons_self, _, h⟩
    · cases h
  | map values =>
    rcases bind_eq_error.1 h with h | ⟨value, -, h⟩
    · exact .inl ⟨values, List.mem_cons_self, _, h⟩
    · cases h
  | record properties required =>
    rcases bind_eq_error.1 h with h | ⟨members, -, h⟩
    swap
    · cases h
    obtain ⟨⟨property, hp⟩, -, h⟩ := exists_of_mapM_error h
    rcases bind_eq_error.1 h with h | ⟨description, hd, h⟩
    · exact .inr ⟨property, hp, .inl h⟩
    rcases bind_eq_error.1 h with h | ⟨ty, -, h⟩
    · exact .inl ⟨property.2, List.mem_map_of_mem hp, _, h⟩
    · exact .inr ⟨property, hp, .inr ⟨description, ty, _, hd, h⟩⟩

theorem convertAt_error (h : convertAt document stack position hint = .error f) :
    Fails document stack position hint f ∨
      ∃ r inner l v hint', resolve document position = .ok (some r) ∧
        stack.enter r = .ok (.inside inner) ∧ layer r.schema (r.place hint) = .ok l ∧
        v ∈ l.positions ∧ convertAt document inner v hint' = .error f := by
  rw [convertAt_eq, call] at h
  rcases bind_eq_error.1 h with h | ⟨found, hr, h⟩
  · exact .inl (.unread h)
  cases found with
  | none => exact .inl (.nowhere hr h)
  | some r =>
    rcases bind_eq_error.1 h with h | ⟨entry, he, h⟩
    · exact .inl (.refused hr h)
    cases entry with
    | refersBack name => cases h
    | inside inner =>
      rcases bind_eq_error.1 h with h | ⟨l, hl, h⟩
      · exact .inl (.unsupported hr h)
      rcases bind_eq_error.1 h with h | ⟨assembled, -, h⟩
      swap
      · cases h
      rcases assemble_error h with ⟨v, hv, hint', h⟩ | ⟨property, hp, h⟩
      · exact .inr ⟨r, inner, l, v, hint', hr, he, hl, hv, h⟩
      · exact .inl (.undescribed hr hl hp h)

/-- The fault of a call comes from the call itself or from a further call, however deep. -/
theorem exists_fails {stack : Stack} {position : Value} {hint : String}
    (hc : Calls document root stack position)
    (h : convertAt document stack position hint = .error f) :
    ∃ stack position hint, Calls document root stack position ∧
      Fails document stack position hint f := by
  rcases convertAt_error h with hf | ⟨r, inner, l, v, hint', hr, he, hl, hv, h⟩
  · exact ⟨stack, position, hint, hc, hf⟩
  · have hj : stack.judge r = .ok (.inside inner) := by
      rw [Stack.judge_eq_enter hc.disciplined, he]
    have := budget_lt hr he hl hv
    exact exists_fails (hc.nested hr hj hl hv) h
termination_by budget document stack position
decreasing_by exact this

/-- A schema is refused because it is an alias that has been entered since the last record, or
because it cannot be told whether it is one. -/
theorem enter_error (h : stack.enter r = .error f) :
    (∃ name ∈ stack.aliases, r.name = some name ∧ f = .unsupportedSchema recursiveAlias name) ∨
      isNominal r.schema = .error f := by
  unfold Stack.enter at h
  split at h
  · cases h
  rename_i name hn
  split at h
  · rename_i ha
    exact .inl ⟨name, List.contains_iff_mem.1 ha, hn, (Except.error.inj h).symm⟩
  split at h
  · cases h
  split at h
  · rename_i g hg
    obtain rfl := Except.error.inj h
    exact .inr hg
  · cases h

/-- At a position that is fit for conversion a call fails by itself only if it refers to an alias
that has been entered since the last record. -/
theorem Fit.mem_aliases (hfit : Fit document position) (h : Fails document stack position hint f) :
    ∃ r, ∃ name ∈ stack.aliases, resolve document position = .ok (some r) ∧ r.name = some name := by
  obtain ⟨r, l, hr, hl, hdescribed⟩ := hfit
  cases h with
  | unread h => cases hr.symm.trans h
  | nowhere h => cases hr.symm.trans h
  | refused hr' h =>
    obtain rfl := eq_of_resolve hr hr'
    rcases enter_error h with ⟨name, hm, hn, -⟩ | h
    · exact ⟨r, name, hm, hr, hn⟩
    · cases (isNominal_of_layer (hl "")).symm.trans h
  | unsupported hr' h =>
    obtain rfl := eq_of_resolve hr hr'
    cases (hl _).symm.trans h
  | undescribed hr' hl' hp h =>
    obtain rfl := eq_of_resolve hr hr'
    obtain rfl := Except.ok.inj ((hl _).symm.trans hl')
    obtain ⟨name, description, text, hname, hd, ht⟩ := hdescribed _ hp
    rcases h with h | ⟨_, ty, isOptional, hd', h⟩
    · cases hd.symm.trans h
    · obtain rfl := Except.ok.inj (hd.symm.trans hd')
      rw [member, hname, ht] at h
      cases h

/-- A call fails by itself with a recursive alias only if it refers to an alias that has been
entered since the last record, or if it leads to a schema whose type is written so. -/
theorem Fails.mem_aliases_or_written
    (h : Fails document stack position hint (.unsupportedSchema recursiveAlias name)) :
    ∃ r, resolve document position = .ok (some r) ∧ (r.name = some name ∧ name ∈ stack.aliases ∨
      ∃ entries, r.schema = .mapping entries ∧ (kindOf entries).spelling = recursiveAlias) := by
  cases h with
  | unread h => cases misused_resolve document position _ h
  | nowhere hr h =>
    rcases bind_eq_error.1 h with h | ⟨reference, -, h⟩
    · cases position.misused_item "$ref" _ h
    · cases h
  | @refused r hr h =>
    refine ⟨r, hr, .inl ?_⟩
    rcases enter_error h with ⟨other, hm, hn, hf⟩ | h
    · obtain ⟨-, rfl⟩ := Fault.unsupportedSchema.inj hf
      exact ⟨hn, hm⟩
    · cases misused_isNominal r.schema _ h
  | @unsupported r hr h => exact ⟨r, hr, .inr (spelling_of_layer_error h)⟩
  | undescribed hr hl hp h =>
    rcases h with h | ⟨description, ty, isOptional, -, h⟩
    · cases Value.misused_get "description" _ _ h
    · obtain ⟨violations, hf⟩ := flaws_of_member_error h
      cases hf

end Call

end ApiBindings.Schema
