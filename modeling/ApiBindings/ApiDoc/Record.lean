import ApiBindings.ApiDoc.FieldType
import ApiBindings.Checked
import ApiBindings.Document.Access
import ApiBindings.Document.Spelling
import ApiBindings.Text.Markup
import ApiBindings.Text.Split

/-!
# Records from lists of fields

Fields come as a flat list. A dotted name places a field inside the field named before the dot, so
the list describes a tree, whose branches stand in the order in which the list first mentions them.
A branch that is declared more than once keeps the last declaration; one that is never declared is a
record of the fields below it.
-/

namespace ApiBindings.ApiDoc

/-- The entries of the declaration of a field. -/
abbrev Declaration := List (Scalar × Value)

/-- A branch of the tree of fields: its declaration, if it has one, and the branches below it. -/
inductive Branch where
  | mk (declaration : Option Declaration) (nested : List (String × Branch))

namespace Branch

def declaration : Branch → Option Declaration
  | mk d _ => d

def nested : Branch → List (String × Branch)
  | mk _ branches => branches

/-- The branch that is not there yet. -/
def empty : Branch := mk none []

end Branch

/-- Places a declaration at a path. -/
def place (declaration : Declaration) :
    List String → List (String × Branch) → List (String × Branch)
  | [], branches => branches
  | [key], branches =>
    Table.update key (fun b => .mk (some declaration) (b.getD .empty).nested) branches
  | key :: rest, branches =>
    Table.update key
      (fun b => .mk (b.getD .empty).declaration (place declaration rest (b.getD .empty).nested))
      branches

/-- The path of a field and its declaration. -/
def fieldPath (field : Value) : Except Fault (List String × Declaration) := do
  let name ← (← field.item "field").asText
  return (Text.splitText '.' name, ← field.entries)

def branchesOf (fields : List Value) : Except Fault (List (String × Branch)) := do
  let paths ← fields.mapM fieldPath
  return paths.foldl (fun branches p => place p.2 p.1 branches) []

/-- The value under a key of a declaration, null if there is none. -/
def property (key : String) (declaration : Declaration) : Value :=
  (Value.valueAt? (.text key) declaration).getD .null

/-- The type as it is written in a declaration, a text if it is left out. -/
def writtenType (declaration : Declaration) : Except Fault String :=
  ((property "type" declaration).orElse (.text "String")).asSubject

/-- The primitive type of a declaration. -/
def primitiveOf (base raw : String) (declaration : Declaration) : Except Fault Primitive :=
  match primitive? base with
  | some p => .ok p
  | none => .error (.unknownFieldType raw
      ((Value.valueAt? (.text "field") declaration).getD (.text "")).spelling)

/-- A text without quotes around it. -/
def unquoted (s : String) : String :=
  String.ofList (Text.trimBy (fun c => c == '"' || c == '\'') s.toList)

/-- The description in a declaration, none if it is empty. -/
def descriptionOf (declaration : Declaration) : Except Fault (Option String) := do
  let text ← ((property "description" declaration).orElse (.text "")).asSubject
  let cleaned := Text.cleanMarkup text
  return if cleaned = "" then none else some cleaned

/-- A text or, if only some values are allowed, a union of them; any other primitive as it is. -/
def plainType (name base raw : String) (declaration : Declaration) : Except Fault Ty := do
  let p ← primitiveOf base raw declaration
  let allowed := property "allowedValues" declaration
  if allowed.isTrue && p = .string then
    return .union name ((← allowed.elements).map fun v => unquoted v.spelling)
  else return .primitive p

def arrayIf (isArray : Bool) (ty : Ty) : Ty := if isArray then .array ty else ty

mutual

/-- The type of a branch under the given name. -/
def typeOf (name : String) : Branch → Except Fault Ty
  | .mk none nested => do return .record name (← membersOf name nested)
  | .mk (some declaration) nested => do
    let raw ← writtenType declaration
    let written := FieldType.parse raw
    if written.base = objectType then
      if nested.isEmpty then
        return arrayIf written.isArray (.map (.primitive .string) (.primitive .string))
      else return arrayIf written.isArray (.record name (← membersOf name nested))
    else return arrayIf written.isArray (← plainType name written.base raw declaration)

/-- The members that the branches below a record make up. -/
def membersOf (record : String) : List (String × Branch) → Except Fault (List Member)
  | [] => .ok []
  | (key, branch) :: rest => do
    let declaration := branch.declaration.getD []
    let description ← descriptionOf declaration
    let ty ← typeOf (record ++ " " ++ key) branch
    let optional := (property "optional" declaration).isTrue
    return ⟨key, description, ty, optional⟩ :: (← membersOf record rest)

end

/-- The record of a list of fields, none if the list is empty. -/
def recordOf (name : String) (fields : List Value) : Except Fault (Option Ty) := do
  if fields.isEmpty then return none
  else return some (.record name (← membersOf name (← branchesOf fields)))

/-- The record of fields whose name and list come unchecked; nothing is made of an empty list. -/
def readRecord (name fields : Value) : Except Fault (Option Ty) := do
  if !fields.isTrue then return none
  else
    let ty ← recordOf name.spelling (← fields.elements)
    let _ ← (name.checkText.under (.field "name")).toExcept
    return ty

end ApiBindings.ApiDoc
