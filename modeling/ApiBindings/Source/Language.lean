import ApiBindings.Document.Access
import ApiBindings.Route
import ApiBindings.Text.LetterCase
import ApiBindings.Text.PropertyKey
import ApiBindings.Text.Words

/-!
# Target languages

A client is written in TypeScript or in C#. The languages differ in the names of the primitive
types, in the spelling of arrays, maps, parameters and URL placeholders, and in the case of
identifiers. A named type is spelled by its name in capitalised words in both.
-/

namespace ApiBindings.Source

open Text

/-- A language in which a client can be written. -/
inductive Language where
  | typeScript
  | cSharp
  deriving DecidableEq, Repr

namespace Language

def name : Language → String
  | typeScript => "typescript"
  | cSharp => "csharp"

def fileExtension : Language → String
  | typeScript => ".ts"
  | cSharp => ".cs"

def names : List (String × Language) :=
  [("typescript", typeScript), ("ts", typeScript), ("csharp", cSharp), ("cs", cSharp),
   ("c#", cSharp)]

/-- The language that a text names in any letter case. -/
def ofText (text : String) : Except Fault Language :=
  match names.lookup (lowerText text) with
  | some language => .ok language
  | none => .error (.unknownLanguage text)

def ofValue (v : Value) : Except Fault Language := v.asText >>= ofText

def primitiveName : Language → Primitive → String
  | typeScript, .string => "string"
  | typeScript, .boolean => "boolean"
  | typeScript, .integer => "number"
  | typeScript, .float => "number"
  | typeScript, .double => "number"
  | cSharp, .string => "string"
  | cSharp, .boolean => "bool"
  | cSharp, .integer => "int"
  | cSharp, .float => "float"
  | cSharp, .double => "double"

def arrayOf : Language → String → String
  | typeScript, element => element ++ "[]"
  | cSharp, element => "List<" ++ element ++ ">"

def mapOf : Language → String → String → String
  | typeScript, key, value => "Record<" ++ key ++ ", " ++ value ++ ">"
  | cSharp, key, value => "Dictionary<" ++ key ++ ", " ++ value ++ ">"

/-- The identifier under which a named type is declared. -/
def typeName (_ : Language) (name : String) : String := pascalCase name

/-- The identifier of a member of a record. TypeScript keeps the name, since the client hands back
the body of a response as it is. -/
def memberName : Language → String → String
  | typeScript, name => propertyKey name
  | cSharp, name => pascalCase name

def functionName : Language → String → String
  | typeScript, name => camelCase name
  | cSharp, name => pascalCase name

def parameterName (_ : Language) (name : String) : String := camelCase name

/-- A type where it is used. -/
def typeRef (language : Language) : Ty → String
  | .primitive p => language.primitiveName p
  | .array element => language.arrayOf (language.typeRef element)
  | .map key value => language.mapOf (language.typeRef key) (language.typeRef value)
  | .union name _ => language.typeName name
  | .record name _ => language.typeName name

/-- A type where it is used; a missing type is a text. -/
def optionalTypeRef (language : Language) : Option Ty → String
  | some ty => language.typeRef ty
  | none => language.primitiveName .string

def parameter (language : Language) (name : String) (ty : Ty) : String :=
  match language with
  | typeScript => language.parameterName name ++ ": " ++ language.typeRef ty
  | cSharp => language.typeRef ty ++ " " ++ language.parameterName name

def parameterList (language : Language) (r : Route) : String :=
  ", ".intercalate (r.parameters.map fun p => language.parameter p.1 p.2)

/-- The placeholder for an identifier in a URL. -/
def placeholder : Language → String → String
  | typeScript, identifier => "$\x7b" ++ identifier ++ "\x7d"
  | cSharp, identifier => "\x7b" ++ identifier ++ "\x7d"

def segment (language : Language) : Segment → String
  | .literal value => value
  | .parameter name => language.placeholder (language.parameterName name)

/-- The URL of a route, with placeholders for its parameters. -/
def urlTemplate (language : Language) (r : Route) : String :=
  "/".intercalate (r.segments.map language.segment)

end Language

/-- Lines of source text, each with its line break. -/
def ofLines (lines : List String) : String := String.join (lines.map (· ++ "\n"))

end ApiBindings.Source
