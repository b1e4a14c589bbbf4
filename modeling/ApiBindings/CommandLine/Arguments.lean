/-!
# Arguments

The arguments of a command are options and operands, in any order. A long option starts with two
dashes and may have its value behind an equals sign; short options start with one dash and may stand
together, the last of them with its value. An option that takes a value and has none attached takes
the next argument, whatever that looks like. Behind two dashes alone there are operands only.
-/

namespace ApiBindings.CommandLine

/-- What an option is about. -/
inductive Topic where
  | output
  | language
  | format
  | apiVersion
  | allowRedefinition
  | settingsFile
  | quiet
  | help
  deriving DecidableEq, Repr

/-- How an option is written, and whether it takes a value. -/
structure OptionForm where
  topic : Topic
  long : String
  short : Option Char
  takesValue : Bool

/-- What an argument that starts with a dash gives: topics with values, and the topic whose value is
the next argument. -/
structure OptionArgument where
  given : List (Topic × String)
  awaiting : Option Topic

/-- The options and the operands of a command. -/
structure Arguments where
  given : List (Topic × String)
  operands : List String
  deriving DecidableEq, Repr

namespace OptionForm

/-- The short options in a row of letters. -/
def readShort (forms : List OptionForm) : List Char → Option OptionArgument
  | [] => some ⟨[], none⟩
  | c :: cs => do
    let form ← forms.find? fun f => f.short == some c
    if !form.takesValue then
      let rest ← readShort forms cs
      return ⟨(form.topic, "") :: rest.given, rest.awaiting⟩
    else if cs.isEmpty then return ⟨[], some form.topic⟩
    else return ⟨[(form.topic, String.ofList cs)], none⟩

/-- What a long option with the value attached to it gives, if one is attached. -/
def readLong (form : OptionForm) (attached : Option String) : Option OptionArgument :=
  match form.takesValue, attached with
  | true, some value => some ⟨[(form.topic, value)], none⟩
  | true, none => some ⟨[], some form.topic⟩
  | false, none => some ⟨[(form.topic, "")], none⟩
  | false, some _ => none

/-- What an argument that starts with a dash gives. -/
def read (forms : List OptionForm) (argument : String) : Option OptionArgument :=
  let cs := argument.toList
  let name := cs.takeWhile (· != '=')
  let attached := (cs.drop name.length).tail?.map String.ofList
  match forms.find? fun f => f.long == String.ofList name with
  | some form => form.readLong attached
  | none =>
    match cs with
    | '-' :: '-' :: _ => none
    | _ => readShort forms cs.tail

end OptionForm

namespace Arguments

def holdsOptions (argument : String) : Bool :=
  match argument.toList with
  | '-' :: _ :: _ => true
  | _ => false

/-- Sorts arguments into options and operands. If a topic awaits its value, that comes first. -/
def readFrom (forms : List OptionForm) (awaiting : Option Topic) : List String → Option Arguments
  | [] => if awaiting.isSome then none else some ⟨[], []⟩
  | argument :: rest =>
    match awaiting with
    | some topic =>
      (readFrom forms none rest).map fun a => ⟨(topic, argument) :: a.given, a.operands⟩
    | none =>
      if argument == "--" then some ⟨[], rest⟩
      else if holdsOptions argument then
        match OptionForm.read forms argument with
        | none => none
        | some read =>
          (readFrom forms read.awaiting rest).map fun a => ⟨read.given ++ a.given, a.operands⟩
      else (readFrom forms none rest).map fun a => ⟨a.given, argument :: a.operands⟩

/-- Sorts arguments into options and operands. -/
def read (forms : List OptionForm) (arguments : List String) : Option Arguments :=
  readFrom forms none arguments

/-- The value given for a topic; the last one counts. -/
def value? (a : Arguments) (topic : Topic) : Option String := a.given.reverse.lookup topic

def has (a : Arguments) (topic : Topic) : Bool := (a.value? topic).isSome

end Arguments

end ApiBindings.CommandLine
