import ApiBindings.Checked
import ApiBindings.Document.Load
import ApiBindings.Document.Spelling

/-!
# Settings

What a run is asked to do: the target language, the format of the document, the label of its version
and whether a later declaration may replace an earlier one. Settings are checked when they are read;
a setting that is given otherwise takes the place of the one that was read.
-/

namespace ApiBindings

/-- What a run is asked to do. -/
structure Settings where
  language : String
  format : String
  apiVersion : Option String
  allowRedefinition : Bool
  deriving DecidableEq, Repr

namespace Settings

/-- The settings that hold when none are given. -/
def default : Settings := ⟨"typescript", "auto", none, false⟩

/-- The formats of a document; `auto` leaves the choice to the document. -/
def formats : List String := ["auto", "openapi", "apidoc"]

def names : List String := ["language", "format", "api_version", "allow_redefinition"]

/-- One of the formats. -/
def checkFormat : Value → Checked String
  | .text s => if formats.contains s then .valid s else .flaw .notLiteral
  | _ => .flaw .notLiteral

/-- The names that are no settings. -/
def unknownNames (entries : List (Scalar × Value)) : List String :=
  (entries.map fun e => e.1.spelling).filter fun name => !names.contains name

/-- Accepts entries that are all settings. -/
def checkNames (entries : List (Scalar × Value)) : Checked Unit :=
  match unknownNames entries with
  | [] => .valid ()
  | unknown => .flawed (unknown.map fun name => ⟨[.field name], .unknownField⟩)

def check (entries : List (Scalar × Value)) : Checked Settings :=
  (fun language format apiVersion allowRedefinition _ =>
      (⟨language, format, apiVersion, allowRedefinition⟩ : Settings)) <$>
    Value.checkField "language" (some default.language) Value.checkText entries <*>
    Value.checkField "format" (some default.format) checkFormat entries <*>
    Value.checkField "api_version" (some default.apiVersion) Value.checkOptionalText entries <*>
    Value.checkField "allow_redefinition" (some default.allowRedefinition) Value.checkBool
      entries <*>
    checkNames entries

def hasTextKeys (entries : List (Scalar × Value)) : Bool :=
  entries.all fun e => (Value.scalar e.1).asText.isOk

def ofEntries (entries : List (Scalar × Value)) : Except Fault Settings :=
  if hasTextKeys entries then (check entries).toExcept else misuse .notFieldName

def ofValue (v : Value) : Except Fault Settings := v.entries >>= ofEntries

/-- The settings in a YAML file of the given name and content, with a loader of YAML; an empty file
gives none. -/
def loadWith (yaml : Yaml.Loader) (file content : String) : Except Fault Settings :=
  match yaml (Value.fileText content) with
  | .error (.unreadable m) => misuse m
  | .error .malformed => .error (.unreadableSettings file)
  | .ok .null => .ok default
  | .ok (.mapping entries) =>
    if hasTextKeys entries then
      match check entries with
      | .valid s => .ok s
      | .flawed violations => .error (.invalidSettings file violations)
    else misuse .notFieldName
  | .ok _ => .error (.settingsNotMapping file)

/-- The settings in a YAML file of the given name and content. -/
def load (file content : String) : Except Fault Settings := loadWith Yaml.read file content

/-- Settings that are given apart from those that were read. -/
structure Overrides where
  language : Option String
  format : Option String
  apiVersion : Option String
  allowRedefinition : Option Bool

/-- The settings with those that are given in place of those that were read. -/
def override (s : Settings) (o : Overrides) : Settings where
  language := o.language.getD s.language
  format := o.format.getD s.format
  apiVersion := o.apiVersion <|> s.apiVersion
  allowRedefinition := o.allowRedefinition.getD s.allowRedefinition

end Settings

end ApiBindings
