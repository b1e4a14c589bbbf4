import ApiBindings.Checked
import ApiBindings.Schema.Stack

/-!
# From schemas to types

A schema becomes a type layer by layer. A component always gives its name to the type it becomes;
any other schema is named by its place, that is by the names on the way to it. A reference back to a
record that is being converted becomes a record without members, which carries the name only.

The conversion ends for every document: a position inside the same schema is smaller, and a position
inside a component is reached after a name of the document has been used up.
-/

namespace ApiBindings.Schema

/-- The name of a schema that has none and stands at a place without one. -/
def unnamed : String := "No Name"

/-- The name of the place of a schema: its own, else the hint. -/
def Resolved.place (r : Resolved) (hint : String) : String :=
  let name := r.name.getD ""
  if name ≠ "" then name else if hint ≠ "" then hint else unnamed

/-- The type under the name of the component it comes from. -/
def Resolved.label (r : Resolved) (ty : Ty) : Ty :=
  match r.name with
  | none => ty
  | some name => ty.withName name

/-- A member of a record, if its key and its description are texts. -/
def member (key : Scalar) (description : Value) (ty : Ty) (isOptional : Bool) :
    Except Fault Member :=
  Checked.toExcept <|
    (fun name description => (⟨name, description, ty, isOptional⟩ : Member)) <$>
      (Value.scalar key).checkText.under (.field "name") <*>
      description.checkOptionalText.under (.field "description")

/-- The type of a layer, from the types at its positions. -/
def assemble {m : Type → Type} [Monad m] [MonadLiftT (Except Fault) m] (l : Layer) (place : String)
    (convert : (v : Value) → v ∈ l.positions → String → m Ty) : m Ty :=
  match l with
  | .primitive p => return .primitive p
  | .union cases => return .union place cases
  | .array items => do
    let element ← convert items (by simp [Layer.positions]) (place ++ " item")
    return .array element
  | .map values => do
    let value ← convert values (by simp [Layer.positions]) (place ++ " value")
    return .map (.primitive .string) value
  | .record properties required => do
    let members ← properties.attach.mapM fun ⟨(key, schema), h⟩ => do
      let description ← schema.get "description"
      let ty ← convert schema (List.mem_map_of_mem (f := (·.2)) h) (place ++ " " ++ key.spelling)
      member key description ty (!required.contains key)
    return .record place members

/-- What conversion uses up: names of records, then names of aliases, then the schema. -/
noncomputable def budget (document : Value) (stack : Stack) (position : Value) : Nat × Nat × Nat :=
  (unseen (componentNames document) stack.nominals, unseen (componentNames document) stack.aliases,
    sizeOf position)

/-- The positions in a layer have a smaller budget than the position that led to it. -/
theorem budget_lt {document position v : Value} {stack stack' : Stack} {r : Resolved} {l : Layer}
    {place : String} (hr : resolve document position = .ok (some r))
    (he : stack.enter r = .ok (.inside stack')) (hl : layer r.schema place = .ok l)
    (hv : v ∈ l.positions) :
    Prod.Lex (· < ·) (Prod.Lex (· < ·) (· < ·)) (budget document stack' v)
      (budget document stack position) := by
  unfold budget
  rcases resolve_cases hr with ⟨hn, hs⟩ | ⟨name, hn, hc⟩
  · have := sizeOf_lt_of_mem_positions hl hv
    rw [hs] at this
    rw [Stack.eq_of_enter_inline hn he]
    exact Prod.Lex.right _ (Prod.Lex.right _ this)
  · have hm := mem_componentNames_of_resolve hc
    rcases Stack.unseen_lt_of_enter hn hm he with h | ⟨heq, h⟩
    · exact Prod.Lex.left _ _ h
    · rw [heq]
      exact Prod.Lex.right _ (Prod.Lex.left _ _ h)

/-- The type of the schema at a position, with the components around it on the stack. -/
def convertAt (document : Value) (stack : Stack) (position : Value) (hint : String) :
    Except Fault Ty :=
  match hr : resolve document position with
  | .error f => .error f
  | .ok none =>
    match position.item "$ref" with
    | .error f => .error f
    | .ok reference => .error (.unresolvableReference reference.spelling)
  | .ok (some r) =>
    match he : stack.enter r with
    | .error f => .error f
    | .ok (.refersBack name) => .ok (.record name [])
    | .ok (.inside stack') =>
      match hl : layer r.schema (r.place hint) with
      | .error f => .error f
      | .ok l =>
        (assemble l (r.place hint) fun v hv hint =>
          have := budget_lt hr he hl hv
          convertAt document stack' v hint).map r.label
termination_by budget document stack position
decreasing_by exact this

/-- The type of a schema that is already resolved. -/
def convert (document : Value) (r : Resolved) (hint : String) : Except Fault Ty := do
  match ← Stack.enter [] r with
  | .refersBack name => return .record name []
  | .inside stack =>
    let l ← layer r.schema (r.place hint)
    let ty ← assemble l (r.place hint) fun v _ hint => convertAt document stack v hint
    return r.label ty

/-- The type of the schema at a position of a document. -/
def convertPosition (document position : Value) (hint : String) : Except Fault Ty :=
  convertAt document [] position hint

end ApiBindings.Schema
