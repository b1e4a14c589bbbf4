import ApiBindings.CommandLine.Session

/-!
# Runs

A run reads the arguments, goes through the session of their command and saves the client, if one is
to be written. Arguments that are not in order end a run with exit code two, and faults with exit
code one; then no file has changed.

A run needs two things from its host: a loader of YAML, and a console that lines are printed on. The
console may take some texts only, such as those of one script, and a line that it does not take
breaks the run off at once. Messages are shown apart from these lines, where every text is taken.
-/

namespace ApiBindings.CommandLine

/-- What a run needs from elsewhere: a loader of YAML, and whether the console takes a text. -/
structure Host where
  yaml : Yaml.Loader
  takes : String → Bool

namespace Host

/-- A host with the loader of the common part of YAML and a console that takes every text. -/
def usual : Host := ⟨Yaml.read, fun _ => true⟩

/-- Whether a line can be printed. It is printed without terminal sequences. -/
def prints (host : Host) (line : String) : Bool := host.takes (Text.plain line)

def shows (host : Host) (event : Event) : Bool := event.line?.all host.prints

/-- The first line that cannot be printed. -/
def unprinted? (host : Host) (lines : List String) : Option String :=
  lines.find? fun line => !host.prints line

end Host

/-- What a run breaks off with that it does not report. -/
inductive Crash where
  | fault (f : Fault)
  | save (e : SaveError)
  deriving DecidableEq, Repr

/-- What a run leaves behind. There are no messages to look at when the arguments are not in
order. A line that could not be printed has broken the run off. -/
structure Outcome where
  exitCode : Nat
  output : String
  messages : Option (List String)
  crash : Option Crash
  unprinted : Option String
  files : Files
  deriving DecidableEq, Repr

/-- The text of some lines, each without terminal sequences. -/
def printed (lines : List String) : String :=
  String.join (lines.map fun line => Text.plain line ++ "\n")

def printedOf (events : List Event) : String := printed (events.filterMap Event.line?)

/-- The messages among events, with a report behind them. -/
def messagesOf (events : List Event) (report : List String) : List String :=
  Text.lines
    (printed ((events.filterMap Event.warning?).map OpenApi.Warning.message ++ report))

namespace Session

/-- The outcome of a session whose lines have all been printed. -/
def finish (host : Host) (s : Session) (files : Files) (site : Site) : Outcome :=
  let output := printedOf s.events
  let messages := messagesOf s.events
  match s.ending with
  | .done => ⟨0, output, some (messages []), none, none, files⟩
  | .fault f =>
    match reportOf f with
    | some report => ⟨1, output, some (messages [report]), none, none, files⟩
    | none => ⟨1, output, some (messages []), some (.fault f), none, files⟩
  | .save path content announcement =>
    match files.save site path content with
    | .error e => ⟨1, output, some (messages []), some (.save e), none, files⟩
    | .ok saved =>
      let told := output ++ printed (announcement.takeWhile host.prints)
      match host.unprinted? announcement with
      | some line => ⟨1, told, some (messages []), none, some line, saved⟩
      | none => ⟨0, told, some (messages []), none, none, saved⟩

def outcome (host : Host) (s : Session) (files : Files) (site : Site) : Outcome :=
  match host.unprinted? (s.events.filterMap Event.line?) with
  | some line =>
    let shown := s.events.takeWhile host.shows
    ⟨1, printedOf shown, some (messagesOf shown []), none, some line, files⟩
  | none => s.finish host files site

end Session

/-- The outcome of running the program on a host, with arguments and environment variables among
some files. -/
def runOn (host : Host) (arguments : List String) (e : Environment) (files : Files) (site : Site) :
    Outcome :=
  match Command.read arguments e fun path => (files.read? site path).isSome with
  | none => ⟨2, "", none, none, none, files⟩
  | some command => (command.session host.yaml (files.read? site)).outcome host files site

/-- The outcome of running the program on the usual host. -/
def run (arguments : List String) (e : Environment) (files : Files) (site : Site) : Outcome :=
  runOn .usual arguments e files site

end ApiBindings.CommandLine
