import ApiBindings.Document.Access
import ApiBindings.Document.Json
import ApiBindings.Text.Lines
import ApiBindings.Yaml.Value

/-!
# Reading documents

A document is written in YAML or in JSON. The text is read as YAML first, and only what is no YAML
text is read as JSON.
-/

namespace ApiBindings.Value

/-- The text of a file, in which every line ends with a line feed. -/
def fileText (content : String) : String := String.ofList (Text.unifyBreaks content.toList)

/-- The document in a file of the given name and content, with a loader of YAML. -/
def loadWith (yaml : Yaml.Loader) (file content : String) : Except Fault Value :=
  match yaml (fileText content) with
  | .ok v => .ok v
  | .error (.unreadable m) => misuse m
  | .error .malformed =>
    match Json.read? (fileText content) with
    | some v => .ok v
    | none => .error (.unreadableDocument file)

/-- The document in a file of the given name and content. -/
def load (file content : String) : Except Fault Value := loadWith Yaml.read file content

end ApiBindings.Value
