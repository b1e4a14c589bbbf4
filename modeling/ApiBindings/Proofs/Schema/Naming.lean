import ApiBindings.Proofs.Schema.Faithful
import ApiBindings.Proofs.Schema.Termination
import ApiBindings.Schema.Converter

/-!
# Which schemas become types with a name

Whether a schema is nominal is told from its keys alone, before it is converted. What becomes of it
is found out later, layer by layer and by other code. Both readings agree for every schema: a
conversion that is no reference back yields a record or a union exactly if the schema is nominal,
and then under the name of its component, if it has one (`named_iff_nominal`).

Conversions are run in two ways, with a stack and with a memory. What is needed of them is that a
type is assembled from a layer, so the layers are looked at once for both (`named_assemble`).
-/

namespace ApiBindings.Schema

variable {document position : Value} {r : Resolved} {l : Layer} {hint place : String} {ty : Ty}

/-- The name of the type of a nominal schema; any other type has none. -/
def nameIf (nominal : Bool) (name : String) : Option String := if nominal then some name else none

section Named

variable {m : Type → Type} [Monad m] [MonadLiftT (Except Fault) m]
  {E : ∀ {α : Type}, (α → Prop) → m α → Prop}
  (pure : ∀ {α : Type} {P : α → Prop} {a : α}, P a → E P (Pure.pure a : m α))
  (bind : ∀ {α β : Type} {P : β → Prop} {x : m α} {k : α → m β},
    (∀ a, E P (k a)) → E P (x >>= k))

include pure bind in
theorem named_assemble (l : Layer) (place : String)
    (f : (v : Value) → v ∈ l.positions → String → m Ty) :
    E (fun ty => ty.name? = nameIf l.isNominal place) (assemble l place f) := by
  cases l with
  | primitive p => exact pure rfl
  | union cases => exact pure rfl
  | array items => exact bind fun element => pure rfl
  | map values => exact bind fun value => pure rfl
  | record properties required => exact bind fun members => pure rfl

end Named

theorem name?_label {nominal : Bool} (h : ty.name? = nameIf nominal (r.place hint)) :
    (r.label ty).name? = nameIf nominal (r.typeName hint) := by
  unfold Resolved.label Resolved.typeName
  cases r.name with
  | none => exact h
  | some name =>
    rw [Ty.name?_withName, h]
    cases nominal with
    | true => rfl
    | false => rfl

/-! ## Conversions with a stack -/

theorem name?_of_assemble_ok {f : (v : Value) → v ∈ l.positions → String → Except Fault Ty}
    (h : assemble l place f = .ok ty) : ty.name? = nameIf l.isNominal place := by
  refine named_assemble (E := fun P step => ∀ a, step = .ok a → P a) ?_ ?_ l place f ty h
  · intro α P a ha a' heq
    exact Except.ok.inj heq ▸ ha
  · intro α β P x k hk b hb
    obtain ⟨a, -, hb⟩ := bind_eq_ok.1 hb
    exact hk a b hb

/-! ## Conversions with a memory -/

section Remembering

variable {α β : Type} {P : α → Prop} {x : Converting α} {further : Value → String → Converting Ty}

/-- Whatever something comes to has a property. -/
def Ensures (P : α → Prop) (x : Converting α) : Prop :=
  ∀ memory a after, x.run.run memory = some (.ok a, after) → P a

theorem run_bind_ok {k : α → Converting β} {memory after : Stack} {b : β}
    (h : (x >>= k).run.run memory = some (.ok b, after)) :
    ∃ a between, x.run.run memory = some (.ok a, between) ∧
      (k a).run.run between = some (.ok b, after) := by
  change (x.run.run memory).bind _ = _ at h
  obtain ⟨⟨outcome, between⟩, hx, h⟩ := Option.bind_eq_some_iff.1 h
  cases outcome with
  | error f => cases h
  | ok a => exact ⟨a, between, hx, h⟩

theorem Ensures.pure {a : α} (h : P a) : Ensures P (Pure.pure a : Converting α) := by
  intro memory a' after hrun
  cases hrun
  exact h

theorem Ensures.bind {Q : β → Prop} {k : α → Converting β} (h : ∀ a, Ensures Q (k a)) :
    Ensures Q (x >>= k) := by
  intro memory b after hrun
  obtain ⟨a, between, -, hk⟩ := run_bind_ok hrun
  exact h a between b after hk

theorem Ensures.within {c : Component} (h : Ensures P x) : Ensures P (Converter.within c x) := by
  intro memory a after hrun
  change (x.run.run (c :: memory)).bind _ = _ at hrun
  obtain ⟨⟨outcome, between⟩, hx, heq⟩ := Option.bind_eq_some_iff.1 hrun
  cases heq
  exact h _ a between hx

theorem Ensures.lift (outcome : Except Fault α) :
    Ensures (fun a => outcome = .ok a) (liftM outcome : Converting α) := by
  intro memory a after hrun
  cases outcome with
  | error f => cases hrun
  | ok a' =>
    cases hrun
    rfl

theorem ensures_build (further : Value → String → Converting Ty) (r : Resolved) (hint : String) :
    Ensures (fun ty => ∃ nominal, isNominal r.schema = .ok nominal ∧
      ty.name? = nameIf nominal (r.place hint)) (Converter.build further r hint) := by
  intro memory ty after hrun
  obtain ⟨l, between, hl, hrun⟩ := run_bind_ok hrun
  have hlayer := Ensures.lift _ memory l between hl
  exact ⟨_, isNominal_of_layer hlayer,
    named_assemble (E := Ensures) .pure .bind l _ _ between ty after hrun⟩

/-- A schema that does not refer back to a component in the memory is converted to a type with the
name of its component if it is nominal, and else with none. -/
theorem name?_of_remembered {memory after : Stack}
    (hfresh : ∀ name, r.name = some name → memory.standsForWhole name = .ok false)
    (h : (Converter.convertResolved further r hint).run.run memory = some (.ok ty, after)) :
    ∃ nominal, isNominal r.schema = .ok nominal ∧
      ty.name? = nameIf nominal (r.typeName hint) := by
  unfold Converter.convertResolved at h
  cases hn : r.name with
  | none =>
    simp only [hn] at h
    obtain ⟨nominal, hnominal, hname⟩ := ensures_build further r hint memory ty after h
    refine ⟨nominal, hnominal, ?_⟩
    rw [hname, Resolved.typeName, hn, Option.getD_none]
  | some name =>
    simp only [hn] at h
    obtain ⟨read, between, hread, h⟩ := run_bind_ok h
    cases hread
    obtain ⟨whole, between, hwhole, h⟩ := run_bind_ok h
    have heq := Ensures.lift _ _ whole between hwhole
    obtain rfl := Except.ok.inj ((hfresh name hn).symm.trans heq)
    obtain ⟨entered, between, -, h⟩ := run_bind_ok h
    obtain ⟨built, _, hbuilt, h⟩ := run_bind_ok h
    obtain ⟨nominal, hnominal, hname⟩ :=
      (ensures_build further r hint).within between built _ hbuilt
    cases h
    refine ⟨nominal, hnominal, ?_⟩
    have hlabel := name?_label hname
    rwa [Resolved.label, hn] at hlabel

end Remembering

/-! ## Whatever the way -/

/-- A schema is converted to a type, and not as a reference back to a component around it. -/
inductive ConvertsTo (document : Value) (r : Resolved) (hint : String) (ty : Ty) : Prop
  | alone (h : convert document r hint = .ok ty)
  | within (stack inner : Stack) (position : Value)
    (hr : resolve document position = .ok (some r)) (he : stack.enter r = .ok (.inside inner))
    (h : convertAt document stack position hint = .ok ty)
  | remembering {depth : Nat} {memory after : Stack}
    (hfresh : ∀ name, r.name = some name → memory.standsForWhole name = .ok false)
    (h : (Task.resolved r hint).perform document depth memory = some (.ok ty, after))

/-- The type of a schema has the name that the schema leads to if it is nominal, and else none. -/
theorem ConvertsTo.name?_eq (h : ConvertsTo document r hint ty) :
    ∃ nominal, isNominal r.schema = .ok nominal ∧
      ty.name? = nameIf nominal (r.typeName hint) := by
  cases h with
  | alone h =>
    obtain ⟨entry, he, h⟩ := bind_eq_ok.1 h
    cases entry with
    | refersBack name => cases (refersBack_ok he).2
    | inside inner =>
      obtain ⟨l, hl, h⟩ := bind_eq_ok.1 h
      obtain ⟨assembled, ha, h⟩ := bind_eq_ok.1 h
      cases h
      exact ⟨_, isNominal_of_layer hl, name?_label (name?_of_assemble_ok ha)⟩
  | within stack inner position hr he h =>
    obtain ⟨r', hr', ⟨name, he', -⟩ | ⟨inner', l, assembled, -, hl, ha, rfl⟩⟩ := convertAt_ok h
    · cases hr.symm.trans hr'
      cases he.symm.trans he'
    · cases hr.symm.trans hr'
      exact ⟨_, isNominal_of_layer hl, name?_label (name?_of_assemble_ok ha)⟩
  | remembering hfresh h => exact name?_of_remembered hfresh h

/-- **Nominal schemas are those that become types with a name.** Whatever the document, the schema,
its name and the hint, and whatever is being converted around it: a schema that is converted, and
not as a reference back, becomes a record or a union exactly if it is nominal. A nominal schema of a
component becomes a type with the name of the component. -/
theorem named_iff_nominal (h : ConvertsTo document r hint ty) :
    ∃ nominal, isNominal r.schema = .ok nominal ∧ ty.name?.isSome = nominal ∧
      ∀ name, r.name = some name → nominal = true → ty.name? = some name := by
  obtain ⟨nominal, hnominal, hname⟩ := h.name?_eq
  refine ⟨nominal, hnominal, ?_, ?_⟩
  · rw [hname]
    cases nominal with
    | true => rfl
    | false => rfl
  · rintro name hn rfl
    rw [hname, Resolved.typeName, hn]
    rfl

/-- A node is nominal and becomes a record with the name of its component, whatever the hint. -/
theorem node_named : ∃ ty, ConvertsTo treeDocument ⟨nodeSchema, some "Node"⟩ "root" ty ∧
    isNominal nodeSchema = .ok true ∧ ty.name? = some "Node" := by
  have hnode : convertWithin treeDocument 4 [] (referenceTo "Node") "root" =
      reached (.ok (.record "Node" [⟨"children", none, .array (.record "Node" []), true⟩])) := rfl
  have hconvert := (convert_eq_convertAt resolve_node "root").trans (convertPosition_of_reached hnode)
  obtain ⟨nominal, hnominal, rfl, hname⟩ := named_iff_nominal (.alone hconvert)
  exact ⟨_, .alone hconvert, hnominal, hname "Node" rfl rfl⟩

end ApiBindings.Schema
