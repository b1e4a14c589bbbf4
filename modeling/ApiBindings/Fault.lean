/-!
# Faults

Everything that can go wrong between a document and the source text made from it. A fault says what
is wrong; its message is made in one place. A value of the wrong shape has no message: the document
is then not one that the program was meant to read.
-/

namespace ApiBindings

/-- How a value can have the wrong shape for what is asked of it. -/
inductive Misuse where
  | notMapping
  | notText
  | notSearchable
  | notIterable
  | notIndexable
  | notHashable
  | notMatchable
  | notFieldName
  | missingEntry (key : String)
  | unreadableScalar
  deriving DecidableEq, Repr

/-- A step from a checked value to one of its parts. -/
inductive Step where
  | field (name : String)
  | index (i : Nat)
  deriving DecidableEq, Repr

/-- What a checked part can be instead of what is expected. -/
inductive Flaw where
  | missing
  | notText
  | notList
  | notOneOf
  | notLiteral
  | blank
  | notBool
  | unreadableBool
  | unknownField
  | noKind
  | unknownKind
  | notTagged
  | notMapping
  deriving DecidableEq, Repr

/-- A flaw and the path to the part that has it. -/
structure Violation where
  path : List Step
  flaw : Flaw
  deriving DecidableEq, Repr

/-- Why no source text can be made. -/
inductive Fault where
  | misuse (m : Misuse)
  | invalid (violations : List Violation)
  | unreadableDocument (file : String)
  | documentNotMapping
  | documentNotList
  | obsoleteDocument
  | unknownDocument
  | unknownFormat (name : String)
  | invalidReference (value : String)
  | unresolvableReference (reference : String)
  | unsupportedSchema (kind place : String)
  | unknownFieldType (type field : String)
  | unsupportedMethod (value : String)
  | missingOperationId (path method : String)
  | conflictingType (name : String)
  | unknownLanguage (name : String)
  | unknownPrimitive
  | unreadableSettings (file : String)
  | settingsNotMapping (file : String)
  | invalidSettings (file : String) (violations : List Violation)
  deriving DecidableEq, Repr

namespace Fault

/-- The text of a fault, if it is one that is reported by a text of its own. -/
def message? : Fault → Option String
  | .misuse _ => none
  | .invalid _ => none
  | .unreadableDocument file => some s!"Cannot parse {file}:"
  | .documentNotMapping => some "An OpenAPI document must be a mapping at the top level"
  | .documentNotList => some "apiDoc data must be a list of routes"
  | .obsoleteDocument =>
    some "Swagger 2.0 documents are not supported, convert to OpenAPI 3 first"
  | .unknownDocument => some "Document is neither an OpenAPI document nor apiDoc data"
  | .unknownFormat name => some s!"Unknown format '{name}'"
  | .invalidReference value => some s!"Not a schema reference: '{value}'."
  | .unresolvableReference reference => some s!"Unresolvable schema reference: '{reference}'"
  | .unsupportedSchema kind place =>
    some (s!"Unsupported schema kind '{kind}'" ++ if place = "" then "" else s!" at {place}")
  | .unknownFieldType type field =>
    some (s!"Unknown field type '{type}'" ++ if field = "" then "" else s!" for field '{field}'")
  | .unsupportedMethod value => some s!"Unsupported HTTP method '{value}'"
  | .missingOperationId path method => some s!"No operation ID for {method} {path}"
  | .conflictingType name =>
    some (s!"Type '{name}' is declared twice with different definitions " ++
      "(use --allow-redefinition to keep the last one)")
  | .unknownLanguage name =>
    some s!"No emitter for language '{name}' (known: csharp, typescript)"
  | .unknownPrimitive => none
  | .unreadableSettings file => some s!"Cannot read config {file}:"
  | .settingsNotMapping file => some s!"Config {file} must be a mapping of settings"
  | .invalidSettings file _ => some s!"Invalid config {file}:"

end Fault

end ApiBindings
