import ApiBindings.Schema.Convert

/-!
# A converter that is given many tasks

A converter keeps the components under conversion in a memory that outlives a conversion. It enters
a component by writing it there and takes it off again when the schema of the component is done,
whether a type or a fault comes out. How deep conversions may be nested is limited by a depth; what
is nested deeper has no outcome.
-/

namespace ApiBindings.Schema

/-- An outcome that may be out of reach, with the memory of the converter before and after it. -/
abbrev Converting := ExceptT Fault (StateT Stack Option)

namespace Converter

/-- Does something with a component in the memory, which is taken off again however that ends. -/
def within {α : Type} (c : Component) (act : Converting α) : Converting α := ExceptT.mk do
  modify (c :: ·)
  let outcome ← act.run
  modify List.tail
  return outcome

section Build

variable (further : Value → String → Converting Ty) (r : Resolved) (hint : String)

/-- The type of a resolved schema, whose parts are left to further conversions. -/
def build : Converting Ty := do
  let l ← layer r.schema (r.place hint)
  assemble l (r.place hint) fun v _ hint => further v hint

/-- Converts a resolved schema. A component is judged by the innermost entry of its name. -/
def convertResolved : Converting Ty := do
  match r.name with
  | none => build further r hint
  | some name =>
    if ← (← get).standsForWhole name then return .record name []
    else
      let nominal ← isNominal r.schema
      let ty ← within ⟨name, nominal⟩ (build further r hint)
      return ty.withName name

end Build

/-- Converts the schema at a position, out of reach if more than `depth` conversions are nested. -/
def convertReference (document : Value) : (depth : Nat) → Value → String → Converting Ty
  | 0, _, _ => ExceptT.mk fun _ => none
  | depth + 1, position, hint => do
    match ← (resolve document position : Except Fault (Option Resolved)) with
    | none =>
      let reference ← position.item "$ref"
      throw (.unresolvableReference reference.spelling)
    | some r => convertResolved (convertReference document depth) r hint

end Converter

/-- What a converter can be given to convert: a position, or a schema that is resolved already. -/
inductive Task where
  | position (v : Value) (hint : String)
  | resolved (r : Resolved) (hint : String)

namespace Task

/-- Performs a task with the memory that earlier tasks have left. -/
def perform (document : Value) (depth : Nat) : Task → StateT Stack Option (Except Fault Ty)
  | position v hint => (Converter.convertReference document depth v hint).run
  | resolved r hint =>
    (Converter.convertResolved (Converter.convertReference document depth) r hint).run

/-- Performs tasks one after the other; a fault ends its task only. -/
def performAll (document : Value) (depth : Nat) (tasks : List Task) :
    StateT Stack Option (List (Except Fault Ty)) :=
  tasks.mapM (perform document depth)

end Task

end ApiBindings.Schema
