import ApiBindings.CommandLine.Run

/-!
# The program

Reads the files that the arguments may name, goes through the session of the command, prints what it
comes to and saves the client.
-/

namespace ApiBindings.CommandLine

/-- The content of the file at a path, if there is one. -/
def readFile? (path : String) : IO (Option String) := do
  try
    return some (← IO.FS.readFile path)
  catch _ => return none

/-- The paths that may name files to read: the arguments, what is attached to them behind an equals
sign, and the variable that names a file with settings. -/
def candidatePaths (arguments : List String) (e : Environment) : List String :=
  arguments ++ arguments.map (fun a => "=".intercalate ((Text.splitText '=' a).drop 1)) ++
    (e.value? "SDKGEN_CONFIG").toList

/-- The environment variables that stand in for options. -/
def readEnvironment : IO Environment := do
  let names := [Topic.language, .format, .apiVersion, .allowRedefinition, .settingsFile].filterMap
    Command.variableFor
  let values ← names.mapM fun name => do return (name, (← IO.getEnv name).getD "")
  return values

def Event.show : Event → IO Unit
  | .line text => IO.print (printed [text])
  | .warning w => IO.eprint (printed [w.message])

/-- Writes a file and prints what is to be told about it. -/
def saveFile (output content : String) (announcement : List String) : IO UInt32 := do
  match (Path.names output).dropLast with
  | [] => pure ()
  | folder => IO.FS.createDirAll ("/".intercalate folder)
  IO.FS.writeFile output content
  IO.print (printed announcement)
  return 0

/-- Shows what a session comes to and brings it to its end. -/
def Session.perform (s : Session) : IO UInt32 := do
  s.events.forM Event.show
  match s.ending with
  | .done => return 0
  | .save output content announcement => saveFile output content announcement
  | .fault f => do
    IO.eprintln ((reportOf f).getD "Error: The document has an unexpected shape.")
    return 1

end ApiBindings.CommandLine

open ApiBindings.CommandLine in
def main (arguments : List String) : IO UInt32 := do
  let e ← readEnvironment
  let contents ← (candidatePaths arguments e).mapM fun path => do
    return (path, ← readFile? path)
  let read? := fun path => (contents.lookup path).join
  match Command.read arguments e fun path => (read? path).isSome with
  | none => do
    IO.eprintln "Usage: sdkgen (generate | inspect) DOC_PATH [OPTIONS]"
    return 2
  | some command => (command.session Host.usual.yaml read?).perform
