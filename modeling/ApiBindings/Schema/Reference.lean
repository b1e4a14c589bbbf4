import ApiBindings.Document.Access
import ApiBindings.Document.Spelling
import ApiBindings.Text.Start

/-!
# References to schemas

A document keeps schemas under names in its component table. A reference names one of them; an entry
may itself be a reference, so that references form chains. A chain ends at an entry that is a
mapping and no reference. It has run in a circle when it is longer than the table, and then, as when
an entry is missing or of the wrong kind, the reference leads nowhere.
-/

namespace ApiBindings.Schema

/-- The table of named schemas of a document; an absent table is empty. -/
def componentTable (document : Value) : Except Fault (List (Scalar × Value)) := do
  let components ← document.get "components"
  let schemas ← (components.orElse (.mapping [])).get "schemas"
  (schemas.orElse (.mapping [])).entries

/-- A reference to a named schema. -/
structure Reference where
  name : String
  deriving DecidableEq, Repr

namespace Reference

/-- What every reference to a schema starts with. -/
def base : String := "#/components/schemas/"

/-- The reference that a text is. -/
def ofText? (text : String) : Option Reference :=
  (Text.dropStart? base.toList text.toList).map fun rest => ⟨String.ofList rest⟩

/-- The reference that a value is. -/
def ofValue? : Value → Option Reference
  | .text s => ofText? s
  | _ => none

def parse (v : Value) : Except Fault Reference :=
  match ofValue? v with
  | some r => .ok r
  | none => .error (.invalidReference v.spelling)

/-- The entries of the schema at the end of a chain that starts at a name and visits at most `fuel`
entries of the table. -/
def follow (table : List (Scalar × Value)) : Nat → String → Option (List (Scalar × Value))
  | 0, _ => none
  | fuel + 1, name =>
    match Value.valueAt? (.text name) table with
    | some (.mapping entries) =>
      match Value.valueAt? (.text "$ref") entries with
      | none => some entries
      | some target =>
        match ofValue? target with
        | some next => follow table fuel next.name
        | none => none
    | _ => none

def resolve (document : Value) (r : Reference) : Except Fault (Option Value) := do
  let table ← componentTable document
  return (follow table table.length r.name).map Value.mapping

end Reference

/-- A schema that is no reference, with the name under which it was reached, if it was. -/
structure Resolved where
  schema : Value
  name : Option String
  deriving Repr

/-- The schema at a position, which may hold a reference to it. -/
def resolve (document position : Value) : Except Fault (Option Resolved) := do
  if ← position.mentions "$ref" then
    match Reference.ofValue? (← position.item "$ref") with
    | none => return none
    | some r => return (← r.resolve document).map fun schema => ⟨schema, some r.name⟩
  else return some ⟨position, none⟩

end ApiBindings.Schema
