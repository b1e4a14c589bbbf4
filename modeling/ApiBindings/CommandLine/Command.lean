import ApiBindings.CommandLine.Arguments
import ApiBindings.Settings
import ApiBindings.Text.Blank
import ApiBindings.Text.LetterCase

/-!
# Commands

One command writes a client and another lists what a client would be made from. What the arguments
do not give is taken from environment variables, of which an empty one counts as not set.
-/

namespace ApiBindings.CommandLine

abbrev Environment := List (String × String)

/-- The value of a variable, unless it is empty. -/
def Environment.value? (e : Environment) (name : String) : Option String :=
  (e.lookup name).filter (· != "")

/-- What both commands are told: the written paths of the document and of a file with settings, and
the settings that are given apart from that file. -/
structure Request where
  document : String
  settingsFile : Option String
  format : Option String
  apiVersion : Option String
  allowRedefinition : Bool
  deriving DecidableEq, Repr

/-- What the program is asked to do. -/
inductive Command where
  | generate (r : Request) (output : String) (language : Option String) (quiet : Bool)
  | inspect (r : Request)
  | help
  deriving DecidableEq, Repr

namespace Command

/-! ## Options -/

def sharedForms : List OptionForm :=
  [⟨.format, "--format", none, true⟩, ⟨.apiVersion, "--api-version", none, true⟩,
   ⟨.allowRedefinition, "--allow-redefinition", none, false⟩,
   ⟨.settingsFile, "--config", none, true⟩, ⟨.help, "--help", none, false⟩]

/-- The options of the command that writes a client. -/
def generateForms : List OptionForm :=
  [⟨.output, "--output", some 'o', true⟩, ⟨.language, "--language", some 'l', true⟩,
   ⟨.quiet, "--quiet", some 'q', false⟩] ++ sharedForms

/-! ## Variables -/

/-- The variable that stands in for an option. -/
def variableFor : Topic → Option String
  | .language => some "SDKGEN_LANGUAGE"
  | .format => some "SDKGEN_FORMAT"
  | .apiVersion => some "SDKGEN_API_VERSION"
  | .allowRedefinition => some "SDKGEN_ALLOW_REDEFINITION"
  | .settingsFile => some "SDKGEN_CONFIG"
  | .output | .quiet | .help => none

/-- The value of an option: the one that is given, else that of its variable. -/
def valueOf (a : Arguments) (e : Environment) (topic : Topic) : Option String :=
  a.value? topic <|> (variableFor topic >>= e.value?)

def onWords : List String := ["1", "true", "t", "yes", "y", "on"]

def offWords : List String := ["0", "false", "f", "no", "n", "off"]

/-- The truth value of a word in any letter case. -/
def truthOf (s : String) : Option Bool :=
  let word := String.ofList (Text.lower (Text.trim s.toList))
  if onWords.contains word then some true
  else if offWords.contains word then some false
  else none

/-- Whether an option without value is switched on. -/
def isOn (a : Arguments) (e : Environment) (topic : Topic) : Option Bool :=
  if a.has topic then some true
  else
    match variableFor topic >>= e.value? with
    | none => some false
    | some s => truthOf s

/-! ## Reading -/

/-- A value that must pass a test if it is there. -/
def tested (test : String → Bool) : Option String → Option (Option String)
  | none => some none
  | some s => if test s then some (some s) else none

/-- What both commands are told. Both files must be there. -/
def request (a : Arguments) (e : Environment) (isFile : String → Bool) : Option Request :=
  match a.operands with
  | [document] => do
    let format ← tested Settings.formats.contains (valueOf a e .format)
    let allowRedefinition ← isOn a e .allowRedefinition
    let settingsFile ← tested isFile (valueOf a e .settingsFile)
    if isFile document then
      return ⟨document, settingsFile, format, valueOf a e .apiVersion, allowRedefinition⟩
    else none
  | _ => none

/-- The command that writes a client. -/
def readGenerate (arguments : List String) (e : Environment) (isFile : String → Bool) :
    Option Command := do
  let a ← Arguments.read generateForms arguments
  if a.has .help then return help
  else
    let r ← request a e isFile
    let output ← a.value? .output
    return generate r output (valueOf a e .language) (a.has .quiet)

/-- The command that lists what a client would be made from. -/
def readInspect (arguments : List String) (e : Environment) (isFile : String → Bool) :
    Option Command := do
  let a ← Arguments.read sharedForms arguments
  if a.has .help then return help
  else return inspect (← request a e isFile)

/-- The command with some arguments behind it, by its name. -/
def readNamed (name : String) (arguments : List String) (e : Environment)
    (isFile : String → Bool) : Option Command :=
  if name = "generate" then readGenerate arguments e isFile
  else if name = "inspect" then readInspect arguments e isFile
  else none

/-- The command that some arguments give, if they are in order. -/
def read (arguments : List String) (e : Environment) (isFile : String → Bool) : Option Command :=
  match arguments with
  | "--help" :: _ => some help
  | "--" :: name :: rest => readNamed name rest e isFile
  | name :: rest => readNamed name rest e isFile
  | [] => none

end Command

end ApiBindings.CommandLine
