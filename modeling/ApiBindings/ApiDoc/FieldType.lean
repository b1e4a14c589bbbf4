import ApiBindings.Text.Blank
import ApiBindings.Text.Erase
import ApiBindings.Text.LetterCase
import ApiBindings.Ty

/-!
# Types of fields

The type of a field is written as a name, with decorations in braces that give sizes and ranges, and
with a pair of brackets behind an array. Letter case and surrounding blanks do not matter.
-/

namespace ApiBindings.ApiDoc

/-- The length of the decoration that a text starts with, zero when it starts with none. -/
def decorationLength : List Char → Nat
  | '{' :: cs =>
    match Text.lengthThrough '}' cs with
    | 0 => 0
    | n + 1 => n + 2
  | _ => 0

/-- What stands before the brackets of an array type. -/
def beforeBrackets? (cs : List Char) : Option (List Char) :=
  match cs.reverse with
  | ']' :: '[' :: rest => some rest.reverse
  | _ => none

/-- A type as it is written for a field. -/
structure FieldType where
  base : String
  isArray : Bool
  deriving DecidableEq, Repr

def FieldType.parse (raw : String) : FieldType :=
  let cleaned := Text.trim (Text.erase decorationLength raw.toList)
  match beforeBrackets? cleaned with
  | some element => ⟨String.ofList (Text.lower (Text.trim element)), true⟩
  | none => ⟨String.ofList (Text.lower cleaned), false⟩

/-- The name of the type of fields with fields of their own. -/
def objectType : String := "object"

/-- The primitive types by the names that fields use for them. -/
def primitiveNames : List (String × Primitive) :=
  [("string", .string), ("number", .float), ("integer", .integer), ("int", .integer),
   ("float", .float), ("double", .double), ("boolean", .boolean), ("bool", .boolean)]

def primitive? (base : String) : Option Primitive := primitiveNames.lookup base

end ApiBindings.ApiDoc
