import ApiBindings.Yaml.Scalar
import ApiBindings.Yaml.Token

/-!
# Nodes of a YAML text

A text holds one document, a tree of scalars, sequences and mappings, each with a tag. A node with
an anchor can be referred to further on and then stands there again. Items may be left out, and a
node that is left out is null. A mapping takes over the entries of the mappings under its merge
keys, in front of its own entries.
-/

namespace ApiBindings.Yaml

/-- A part of a document. -/
inductive Node where
  | scalar (tag : Tag) (value : String)
  | sequence (tag : Tag) (items : List Node)
  | mapping (tag : Tag) (entries : List (Node × Node))

namespace Node

/-- The node that is left out. -/
def absent : Node := scalar .null ""

/-! ## Merging -/

/-- Whether a node is a key under which entries to take over stand. -/
def isMergeKey : Node → Bool
  | scalar .merge _ => true
  | _ => false

/-- The entries of a mapping. -/
def entries? : Node → Option (List (Node × Node))
  | mapping _ entries => some entries
  | _ => none

/-- The entries to take over from a node: those of a mapping, or those of a sequence of mappings,
where an earlier mapping has the last word. -/
def mergedEntries? : Node → Option (List (Node × Node))
  | mapping _ entries => some entries
  | sequence _ items =>
    (items.mapM entries?).map fun parts => parts.reverse.flatten
  | scalar _ _ => none

/-- A key as it stands in a mapping; the sign of the standard key is there a text. -/
def asKey : Node → Node
  | scalar .standard value => scalar .text value
  | n => n

/-- The entries of a mapping after merging. A merge key with anything else than mappings under it
stays, in front of all. -/
def mergeEntries (entries : List (Node × Node)) : List (Node × Node) :=
  let merges := entries.filter fun e => e.1.isMergeKey
  let broken := merges.filter fun e => e.2.mergedEntries?.isNone
  let taken := merges.flatMap fun e => e.2.mergedEntries?.getD []
  let own := entries.filter fun e => !e.1.isMergeKey
  broken ++ taken ++ own.map fun e => (e.1.asKey, e.2)

end Node

/-! ## Tags -/

/-- What stands in front of the names of the tags that have a meaning. -/
def tagBase : String := "tag:yaml.org,2002:"

/-- The tags by their names. -/
def tagNames : List (String × Tag) :=
  [("null", .null), ("bool", .bool), ("int", .int), ("float", .float), ("timestamp", .date),
   ("str", .text), ("seq", .sequence), ("map", .mapping), ("merge", .merge), ("value", .standard)]

/-- The tag of a full name. -/
def Tag.ofName (name : String) : Tag :=
  ((tagNames.find? fun e => tagBase ++ e.1 == name).map (·.2)).getD .unknown

/-- What the properties of a node say about its tag: nothing, that it goes by the form of the node,
or which one it is. -/
inductive TagProperty where
  | absent
  | byForm
  | given (tag : Tag)

namespace TagProperty

/-- The tag of a scalar. -/
def ofScalar (plain : Bool) (value : String) : TagProperty → Tag
  | absent => if plain then Tag.ofPlain value else .text
  | byForm => Tag.ofPlain value
  | given tag => tag

/-- The tag of a node, if not given. -/
def getD (default : Tag) : TagProperty → Tag
  | given tag => tag
  | _ => default

end TagProperty

/-! ## Reading nodes -/

/-- What is left of the tokens, the nodes by their anchors (none as long as a node is not complete),
and the meanings of handles. -/
structure Source where
  tokens : List Token
  anchors : List (String × Option Node)
  handles : List (String × String)

/-- A step that reads tokens, or fails. -/
abbrev Parse := StateT Source Option

namespace Parse

/-- The next token, if there is one. -/
def peek : Parse (Option Token) := return (← get).tokens.head?

/-- Passes over the next token. -/
def skip : Parse Unit := modify fun s => { s with tokens := s.tokens.tail }

/-- Fails. -/
def fail {α : Type} : Parse α := fun _ => none

/-- Passes over the next token if it is the given one, and tells whether it was. -/
def skipIf (t : Token) : Parse Bool := do
  if (← peek) == some t then
    skip
    return true
  else return false

/-- Passes over the given token, which must come next. -/
def expect (t : Token) : Parse Unit := do
  if ← skipIf t then return () else fail

/-- Whether one of the given tokens comes next. -/
def comes (ts : List Token) : Parse Bool := return (← peek).any ts.contains

/-- The tag of a tag name. -/
def tagOf (name : TagName) : Parse TagProperty := do
  let full ←
    match name.handle with
    | none => pure name.suffix
    | some handle =>
      match (← get).handles.lookup handle with
      | some meaning => pure (meaning ++ name.suffix)
      | none => fail
  return if full == "!" then .byForm else .given (Tag.ofName full)

/-- The tag in front of a node. -/
def tagProperty : Parse TagProperty := do
  match ← peek with
  | some (.tag name) => do
    skip
    tagOf name
  | _ => return .absent

/-- The anchor in front of a node. -/
def anchorProperty : Parse (Option String) := do
  match ← peek with
  | some (.anchor name) => do
    skip
    return some name
  | _ => return none

/-- The anchor and the tag in front of a node, in either order. -/
def properties : Parse (Option String × TagProperty) := do
  match ← anchorProperty with
  | some name => return (some name, ← tagProperty)
  | none =>
    let tag ← tagProperty
    return (← anchorProperty, tag)

/-- Notes that the node of an anchor begins; no two nodes have one anchor. -/
def beginAnchor (name : String) : Parse Unit := do
  if ((← get).anchors.lookup name).isSome then fail
  else modify fun s => { s with anchors := (name, none) :: s.anchors }

/-- Notes the complete node of an anchor. -/
def endAnchor (name : String) (n : Node) : Parse Unit :=
  modify fun s => { s with anchors := (name, some n) :: s.anchors }

/-- The node of an anchor, which must be complete. -/
def referenced (name : String) : Parse Node := do
  match (← get).anchors.lookup name with
  | some (some n) => return n
  | _ => fail

end Parse

open Parse

/-- Where a node stands: inside brackets, in a block, or in a mapping of a block, where the items of
a sequence need no indentation. -/
inductive Place where
  | inBrackets
  | inBlock
  | inMapping
  deriving DecidableEq

mutual

/-- The node that comes next. -/
def node (fuel : Nat) (place : Place) : Parse Node :=
  match fuel with
  | 0 => fail
  | fuel + 1 => do
    match ← peek with
    | some (.reference name) => do
      skip
      referenced name
    | _ => do
      let (anchor, tag) ← properties
      match anchor with
      | none => content fuel place (match tag with | .absent => false | _ => true) tag
      | some name => do
        beginAnchor name
        let n ← content fuel place true tag
        endAnchor name n
        return n

/-- The node that comes next, behind its properties; it may be left out if it has some. -/
def content (fuel : Nat) (place : Place) (mayBeAbsent : Bool) (tag : TagProperty) : Parse Node :=
  match fuel with
  | 0 => fail
  | fuel + 1 => do
    match ← peek, place with
    | some .item, .inMapping => return .sequence (tag.getD .sequence) (← looseItems fuel)
    | some (.scalar plain value), _ => do
      skip
      return .scalar (tag.ofScalar plain value) value
    | some .openSequence, _ => do
      skip
      return .sequence (tag.getD .sequence) (← bracketedItems fuel true)
    | some .openMapping, _ => do
      skip
      return .mapping (tag.getD .mapping) (Node.mergeEntries (← bracketedEntries fuel true))
    | some .sequenceStart, .inBlock | some .sequenceStart, .inMapping => do
      skip
      return .sequence (tag.getD .sequence) (← blockItems fuel)
    | some .mappingStart, .inBlock | some .mappingStart, .inMapping => do
      skip
      return .mapping (tag.getD .mapping) (Node.mergeEntries (← blockEntries fuel))
    | _, _ => if mayBeAbsent then return .scalar (tag.getD .null) "" else fail

/-- The node that comes next, or the absent one if one of the given tokens comes instead. -/
def nodeUnless (fuel : Nat) (ends : List Token) (place : Place) : Parse Node :=
  match fuel with
  | 0 => fail
  | fuel + 1 => do if ← comes ends then return .absent else node fuel place

/-- The node behind a colon, or the absent one if there is no colon. -/
def valueUnless (fuel : Nat) (ends : List Token) (place : Place) : Parse Node :=
  match fuel with
  | 0 => fail
  | fuel + 1 => do if ← skipIf .value then nodeUnless fuel ends place else return .absent

/-- The items of a block sequence up to its end. -/
def blockItems (fuel : Nat) : Parse (List Node) :=
  match fuel with
  | 0 => fail
  | fuel + 1 => do
    if ← skipIf .item then
      let n ← nodeUnless fuel [.item, .blockEnd] .inBlock
      return n :: (← blockItems fuel)
    else
      expect .blockEnd
      return []

/-- The items of a sequence that is not indented. -/
def looseItems (fuel : Nat) : Parse (List Node) :=
  match fuel with
  | 0 => fail
  | fuel + 1 => do
    if ← skipIf .item then
      let n ← nodeUnless fuel [.item, .key, .value, .blockEnd] .inBlock
      return n :: (← looseItems fuel)
    else return []

/-- The entries of a block mapping up to its end. -/
def blockEntries (fuel : Nat) : Parse (List (Node × Node)) :=
  match fuel with
  | 0 => fail
  | fuel + 1 => do
    if ← skipIf .key then
      let k ← nodeUnless fuel [.key, .value, .blockEnd] .inMapping
      let v ← valueUnless fuel [.key, .value, .blockEnd] .inMapping
      return (k, v) :: (← blockEntries fuel)
    else
      expect .blockEnd
      return []

/-- The items of a sequence in brackets up to its end; a pair is a mapping of its own. -/
def bracketedItems (fuel : Nat) (first : Bool) : Parse (List Node) :=
  match fuel with
  | 0 => fail
  | fuel + 1 => do
    if ← skipIf .closeSequence then return []
    else
      if !first then expect .comma
      if ← skipIf .key then
        let k ← nodeUnless fuel [.value, .comma, .closeSequence] .inBrackets
        let v ← valueUnless fuel [.comma, .closeSequence] .inBrackets
        let pair := Node.mapping .mapping (Node.mergeEntries [(k, v)])
        return pair :: (← bracketedItems fuel false)
      else if ← skipIf .closeSequence then return []
      else
        let n ← node fuel .inBrackets
        return n :: (← bracketedItems fuel false)

/-- The entries of a mapping in brackets up to its end. -/
def bracketedEntries (fuel : Nat) (first : Bool) : Parse (List (Node × Node)) :=
  match fuel with
  | 0 => fail
  | fuel + 1 => do
    if ← skipIf .closeMapping then return []
    else
      if !first then expect .comma
      if ← skipIf .key then
        let k ← nodeUnless fuel [.value, .comma, .closeMapping] .inBrackets
        let v ← valueUnless fuel [.comma, .closeMapping] .inBrackets
        return (k, v) :: (← bracketedEntries fuel false)
      else if ← skipIf .closeMapping then return []
      else
        let n ← node fuel .inBrackets
        return (n, .absent) :: (← bracketedEntries fuel false)

end

/-! ## Documents -/

/-- The meanings that handles have in every document. -/
def standardHandles : List (String × String) := [("!", "!"), ("!!", tagBase)]

/-- The major number that a directive gives. -/
def Directive.version? : Directive → Option Nat
  | version major => some major
  | _ => none

/-- The handle that a directive gives a meaning to, and the meaning. -/
def Directive.handle? : Directive → Option (String × String)
  | handle name meaning => some (name, meaning)
  | _ => none

/-- The meanings that some directives give to handles. No handle gets two, and there is at most one
version, of major number one. -/
def handlesOf? (directives : List Directive) : Option (List (String × String)) :=
  let versions := directives.filterMap Directive.version?
  let handles := directives.filterMap Directive.handle?
  let names := Table.keys handles
  if (versions == [] || versions == [1]) && names.eraseDups.length == names.length then
    some (handles ++ standardHandles)
  else none

/-- The directives at the start of the tokens. -/
def leadingDirectives : List Token → List Directive
  | .directive d :: ts => d :: leadingDirectives ts
  | _ => []

/-- How many nested steps the tokens of a text can ask for. -/
def fuelFor (ts : List Token) : Nat := 4 * ts.length + 4

/-- The node of a document without a start mark, and the tokens behind it. -/
def bareDocument? (ts : List Token) : Option (Node × List Token) := do
  let (n, s) ← (node (fuelFor ts) .inBlock).run ⟨ts, [], standardHandles⟩
  return (n, s.tokens)

/-- The node behind a start mark, and the tokens behind it. -/
def markedDocument? (ts : List Token) : Option (Node × List Token) := do
  let directives := leadingDirectives ts
  let handles ← handlesOf? directives
  match ts.drop directives.length with
  | .documentStart :: rest =>
    match rest with
    | [] | .directive _ :: _ | .documentStart :: _ | .documentEnd :: _ => some (.absent, rest)
    | _ =>
      let (n, s) ← (node (fuelFor rest) .inBlock).run ⟨rest, [], handles⟩
      return (n, s.tokens)
  | _ => none

/-- The node of the only document that some tokens hold; it is absent if there are none. -/
def Node.ofTokens? (ts : List Token) : Option Node := do
  if ts.isEmpty then return .absent
  else
    let (n, rest) ←
      match ts with
      | .directive _ :: _ | .documentStart :: _ => markedDocument? ts
      | _ => bareDocument? ts
    if rest.all (· == .documentEnd) then some n else none

end ApiBindings.Yaml
