import ApiBindings.CommandLine.Command
import ApiBindings.Files
import ApiBindings.Model
import ApiBindings.Text.Lines
import ApiBindings.Text.Terminal

/-!
# Sessions

A session reads the files that a command names and comes to lines to print, to warnings and to one
end: all is done, or a client is to be written, or a fault stops it. Nothing is written before the
whole client is made. What a session needs from elsewhere is a loader of YAML.
-/

namespace ApiBindings.CommandLine

open OpenApi (Reading Warning)

/-- What is shown on the way: a line that is printed, or a warning. -/
inductive Event where
  | line (text : String)
  | warning (w : Warning)
  deriving DecidableEq, Repr

namespace Event

def line? : Event → Option String
  | line text => some text
  | warning _ => none

def warning? : Event → Option Warning
  | line _ => none
  | warning w => some w

end Event

/-- How a session ends. A client that is to be saved comes with the lines to print once it is. -/
inductive Ending where
  | done
  | save (output content : String) (announcement : List String)
  | fault (f : Fault)
  deriving DecidableEq, Repr

/-- What a session comes to. -/
structure Session where
  events : List Event
  ending : Ending
  deriving DecidableEq, Repr

namespace Request

/-- The settings of the file that is named, if one is, and those given apart in their place. -/
def settings (yaml : Yaml.Loader) (r : Request) (language : Option String)
    (read? : String → Option String) : Except Fault Settings := do
  let fromFile ←
    match r.settingsFile with
    | none => pure Settings.default
    | some file =>
      match read? file with
      | some content => Settings.loadWith yaml (Path.tidy file) content
      | none => .error (.unreadableSettings (Path.tidy file))
  return fromFile.override
    ⟨language, r.format, r.apiVersion, if r.allowRedefinition then some true else none⟩

/-- The document that is named. -/
def load (yaml : Yaml.Loader) (r : Request) (read? : String → Option String) :
    Except Fault Value :=
  match read? r.document with
  | some content => Value.loadWith yaml (Path.tidy r.document) content
  | none => .error (.unreadableDocument (Path.tidy r.document))

/-- The model of the document that is named. -/
def model (yaml : Yaml.Loader) (r : Request) (s : Settings) (read? : String → Option String) :
    Reading Model := do
  Model.ofDocument (← r.load yaml read?) s

end Request

namespace Session

def stopped (f : Fault) : Session := ⟨[], .fault f⟩

/-! ## Writing a client -/

def savedLine (output : String) : String := s!"SDK saved to {Path.tidy output}"

/-- The session that writes a client. -/
def generate (yaml : Yaml.Loader) (r : Request) (output : String) (language : Option String)
    (quiet : Bool) (read? : String → Option String) : Session :=
  let told := fun line => if quiet then [] else [Event.line line]
  match r.settings yaml language read? with
  | .error f => stopped f
  | .ok s =>
    match Source.Language.ofText s.language with
    | .error f => stopped f
    | .ok language =>
      let model := r.model yaml s read?
      let reading := told s!"Parsing {Path.tidy r.document} (format: {s.format})..." ++
        model.warnings.map .warning
      match model.result with
      | .error f => ⟨reading, .fault f⟩
      | .ok m =>
        ⟨reading ++
            told (s!"Found {m.routes.length} routes and {m.declarations.size} " ++
              "type declarations.") ++
            told s!"Generating {language.name} SDK...",
          .save output (Source.client language m.declarations m.versions)
            (if quiet then [] else [savedLine output])⟩

/-! ## Listing a model -/

def resourceLines (r : Resource) : List String :=
  ("  " ++ r.name) :: r.routes.map fun route =>
    "    " ++ route.method.name ++ " " ++ route.url ++ " -> " ++ route.name

def versionLines (v : Version) : List String :=
  ("version '" ++ v.label ++ "'") :: v.resources.flatMap resourceLines

def typeLines (name : String) : Ty → List String
  | .record _ members => [s!"  {name} (record, {members.length} members)"]
  | .union _ cases => ["  " ++ name ++ " (union: " ++ ", ".intercalate cases ++ ")"]
  | _ => []

def modelLines (m : Model) : List String :=
  m.versions.flatMap versionLines ++ ["types"] ++
    m.declarations.entries.flatMap fun e => typeLines e.1 e.2

/-- The session that lists what a client would be made from. -/
def inspect (yaml : Yaml.Loader) (r : Request) (read? : String → Option String) : Session :=
  match r.settings yaml none read? with
  | .error f => stopped f
  | .ok s =>
    let model := r.model yaml s read?
    let warnings := model.warnings.map Event.warning
    match model.result with
    | .error f => ⟨warnings, .fault f⟩
    | .ok m => ⟨warnings ++ (modelLines m).map .line, .done⟩

end Session

/-- The session of a command, given the contents of files. -/
def Command.session (yaml : Yaml.Loader) (read? : String → Option String) : Command → Session
  | generate r output language quiet => Session.generate yaml r output language quiet read?
  | inspect r => Session.inspect yaml r read?
  | help => ⟨[], .done⟩

/-- The text under which a fault is reported. A fault without one is not expected. -/
def reportOf : Fault → Option String
  | .misuse _ | .unknownFormat _ | .unknownPrimitive => none
  | .invalid _ => some "Error: Invalid API description:"
  | f => f.message?.map ("Error: " ++ ·)

end ApiBindings.CommandLine
