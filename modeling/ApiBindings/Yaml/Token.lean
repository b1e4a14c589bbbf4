import ApiBindings.Yaml.BlockScalar
import ApiBindings.Yaml.Plain
import ApiBindings.Yaml.Property
import ApiBindings.Yaml.QuotedScalar

/-!
# Tokens of a YAML text

The tokens show the structure that indentation only implies: a block collection starts where an item
or a key is indented further than what is around it, and ends where the indentation falls back. A
key is known as such only at its colon; it must stand on one line with the colon and be no longer
than 1024 characters, and its token is then put in front of it.
-/

namespace ApiBindings.Yaml

/-- The smallest part of a YAML text. -/
inductive Token where
  | directive (d : Directive)
  | documentStart
  | documentEnd
  | sequenceStart
  | mappingStart
  | blockEnd
  | openSequence
  | closeSequence
  | openMapping
  | closeMapping
  | comma
  | item
  | key
  | value
  | anchor (name : String)
  | reference (name : String)
  | tag (name : TagName)
  | scalar (plain : Bool) (value : String)
  deriving DecidableEq

/-! ## Positions -/

/-- A position in a text. -/
structure Cursor where
  rest : List Char
  index : Nat
  line : Nat
  column : Nat

namespace Cursor

/-- The start of a text. A byte order mark there is not part of it. -/
def start (cs : List Char) : Cursor :=
  match cs with
  | '\ufeff' :: rest => ⟨rest, 1, 0, 0⟩
  | _ => ⟨cs, 0, 0, 0⟩

/-- The position some characters later. -/
def advance : Nat → Cursor → Cursor
  | 0, c => c
  | n + 1, c =>
    match c.rest with
    | [] => c
    | d :: rest =>
      advance n <|
        if isBreak d then ⟨rest, c.index + 1, c.line + 1, 0⟩
        else ⟨rest, c.index + 1, c.line, if d == '\ufeff' then c.column else c.column + 1⟩

end Cursor

/-- How many characters lie in front of the next token, and whether a line break is among them. -/
def separation (inComment : Bool) : List Char → Nat × Bool
  | [] => (0, false)
  | c :: cs =>
    if isBreak c then ((separation false cs).1 + 1, true)
    else if inComment || c == ' ' || c == '#' then
      let later := separation (inComment || c == '#') cs
      (later.1 + 1, later.2)
    else (0, false)

/-! ## Reading tokens -/

/-- A place where a key may have started. It must turn out to be a key when it stands where a key of
the current block mapping is due. -/
structure KeyStart where
  place : Nat
  index : Nat
  line : Nat
  column : Nat
  required : Bool

/-- The state of a reader: its position, the tokens so far (the last first) and their number, the
margin of the current block and those of the blocks around it, whether a key may start here, where
one has started in the innermost brackets, and the same for the brackets around them. A block at
column `c` has the margin `c + 1`, and the margin is zero outside of all blocks. -/
structure Reader where
  cursor : Cursor
  tokens : List Token
  count : Nat
  margin : Nat
  outerMargins : List Nat
  allowsKey : Bool
  keyStart : Option KeyStart
  outerStarts : List (Option KeyStart)

namespace Reader

/-- The state at the start of a text. -/
def start (cs : List Char) : Reader := ⟨Cursor.start cs, [], 0, 0, [], true, none, []⟩

/-- Whether the reader is inside brackets. -/
def bracketed (r : Reader) : Bool := !r.outerStarts.isEmpty

/-- Adds a token. -/
def emit (t : Token) (r : Reader) : Reader :=
  { r with tokens := t :: r.tokens, count := r.count + 1 }

/-- Moves on. -/
def advance (n : Nat) (r : Reader) : Reader := { r with cursor := r.cursor.advance n }

/-- Adds a token and moves on behind it. -/
def take (t : Token) (length : Nat) (r : Reader) : Reader := (r.emit t).advance length

/-- Tells whether a key may start here. -/
def allowKey (allowed : Bool) (r : Reader) : Reader := { r with allowsKey := allowed }

/-- Moves on to the next token. Outside of brackets a key may start on every new line. -/
def skipSeparation (r : Reader) : Reader :=
  let (length, breaksLine) := separation false r.cursor.rest
  { r.advance length with allowsKey := r.allowsKey || (breaksLine && !r.bracketed) }

/-- Whether a key that started there can no longer be one. -/
def isStale (r : Reader) (k : KeyStart) : Bool :=
  k.line != r.cursor.line || r.cursor.index - k.index > 1024

/-- A start of a key, unless it is stale; a stale one must not be required. -/
def keepStart (r : Reader) : Option KeyStart → Option (Option KeyStart)
  | none => some none
  | some k => if !r.isStale k then some (some k) else if k.required then none else some none

/-- Forgets the starts of keys that are stale. -/
def dropStale (r : Reader) : Option Reader := do
  let current ← r.keepStart r.keyStart
  let outer ← r.outerStarts.mapM r.keepStart
  return { r with keyStart := current, outerStarts := outer }

/-- Forgets the start of a key in the innermost brackets, which must not be required. -/
def dropStart (r : Reader) : Option Reader :=
  if r.keyStart.any (·.required) then none else some { r with keyStart := none }

/-- Notes that a key may start here. -/
def noteStart (r : Reader) : Option Reader :=
  if r.allowsKey then do
    let r ← r.dropStart
    let required := !r.bracketed && r.margin == r.cursor.column + 1
    let start : KeyStart := ⟨r.count, r.cursor.index, r.cursor.line, r.cursor.column, required⟩
    return { r with keyStart := some start }
  else some r

/-- The margins around a block after all margins beyond `least` are closed, and how many were. -/
def outerMargin (least margin : Nat) : List Nat → Nat × List Nat × Nat
  | [] => (margin, [], 0)
  | m :: ms =>
    if margin > least then
      let (margin, outer, closed) := outerMargin least m ms
      (margin, outer, closed + 1)
    else (margin, m :: ms, 0)

/-- Ends the blocks whose margin is beyond `least`; brackets have no blocks inside. -/
def closeBlocks (least : Nat) (r : Reader) : Reader :=
  if r.bracketed then r
  else
    let (margin, outer, closed) := outerMargin least r.margin r.outerMargins
    { r with
      tokens := List.replicate closed .blockEnd ++ r.tokens
      count := r.count + closed
      margin := margin
      outerMargins := outer }

/-- Starts a block at a column, unless one has started there; tells whether it has. -/
def openBlock (column : Nat) (r : Reader) : Reader × Bool :=
  if r.margin < column + 1 then
    ({ r with margin := column + 1, outerMargins := r.margin :: r.outerMargins }, true)
  else (r, false)

/-- Adds a token that starts a block in front of an item or a key here, if it is needed. Outside of
brackets an item or a key may only stand where a key may start. -/
def beginBlock (t : Token) (r : Reader) : Option Reader :=
  if r.bracketed then some r
  else if r.allowsKey then
    let (r, opened) := r.openBlock r.cursor.column
    some (if opened then r.emit t else r)
  else none

/-- Puts tokens in front of the token at a place; the first of them comes last. -/
def insertAt (place : Nat) (ts : List Token) (r : Reader) : Reader :=
  let later := r.count - place
  { r with
    tokens := r.tokens.take later ++ ts ++ r.tokens.drop later
    count := r.count + ts.length }

/-- A mark that bounds a document or starts a directive: no block goes on over it. -/
def bound (t : Token) (length : Nat) (r : Reader) : Option Reader := do
  let r ← (r.closeBlocks 0).dropStart
  return (r.allowKey false).take t length

/-- An opening bracket. -/
def openBrackets (t : Token) (r : Reader) : Option Reader := do
  let r ← r.noteStart
  let inside := { r with outerStarts := r.keyStart :: r.outerStarts, keyStart := none }
  return (inside.allowKey true).take t 1

/-- A closing bracket. -/
def closeBrackets (t : Token) (r : Reader) : Option Reader := do
  let r ← r.dropStart
  match r.outerStarts with
  | [] => none
  | k :: outer => return ({ r with keyStart := k, outerStarts := outer }.allowKey false).take t 1

/-- A comma. -/
def comma (r : Reader) : Option Reader := do
  let r ← r.dropStart
  return (r.allowKey true).take .comma 1

/-- A dash in front of an item. -/
def item (r : Reader) : Option Reader := do
  let r ← (← r.beginBlock .sequenceStart).dropStart
  return (r.allowKey true).take .item 1

/-- A question mark in front of a key. -/
def key (r : Reader) : Option Reader := do
  let r ← (← r.beginBlock .mappingStart).dropStart
  return (r.allowKey !r.bracketed).take .key 1

/-- A colon in front of a value. If a key may have started, it was one. -/
def value (r : Reader) : Option Reader := do
  match r.keyStart with
  | some k =>
    let (r, opened) := if r.bracketed then (r, false) else r.openBlock k.column
    let r := r.insertAt k.place (if opened then [.key, .mappingStart] else [.key])
    return ({ r with keyStart := none }.allowKey false).take .value 1
  | none =>
    let r ← (← r.beginBlock .mappingStart).dropStart
    return (r.allowKey !r.bracketed).take .value 1

/-- A token that a key may start with. -/
def content (t : Token) (length : Nat) (r : Reader) : Option Reader := do
  let r ← r.noteStart
  return (r.allowKey false).take t length

/-- A scalar in quotes. -/
def quotedScalar (double : Bool) (cs : List Char) (r : Reader) : Option Reader := do
  let (value, length) ← quotedScalar? double cs
  r.content (.scalar false (String.ofList value)) (length + 1)

/-- A block scalar. -/
def blockScalar (folded : Bool) (cs : List Char) (r : Reader) : Option Reader := do
  let r ← r.dropStart
  let (value, length) ← blockScalar? folded (max r.margin 1) cs
  return (r.allowKey true).take (.scalar false (String.ofList value)) (length + 1)

/-- A plain scalar. A key may start behind it if the gap behind it breaks the line. -/
def plainScalar (r : Reader) : Option Reader := do
  let scalar := Yaml.plainScalar r.bracketed r.margin r.cursor.rest
  let r ← r.content (.scalar true (String.ofList scalar.value)) scalar.length
  return r.allowKey scalar.breaksLine

/-- Whether `c`, which `cs` follows, starts a plain scalar. -/
def startsPlain (bracketed : Bool) (c : Char) (cs : List Char) : Bool :=
  if isSpacing c || "-?:,[]\x7b\x7d#&*!|>'\"%@\x60".toList.contains c then
    !atSpacing cs && (c == '-' || (!bracketed && (c == '?' || c == ':')))
  else true

/-- Reads the token that starts with `c`, which `cs` follows. -/
def token (c : Char) (cs : List Char) (r : Reader) : Option Reader :=
  let startsLine := r.cursor.column == 0
  let isMark := fun mark => startsLine && startsWithThree mark (c :: cs)
  if c == '%' && startsLine then do
    let line := cs.takeWhile (!isBreak ·)
    r.bound (.directive (← directive? line)) (line.length + 1)
  else if isMark '-' then r.bound .documentStart 3
  else if isMark '.' then r.bound .documentEnd 3
  else if c == '[' then r.openBrackets .openSequence
  else if c == '{' then r.openBrackets .openMapping
  else if c == ']' then r.closeBrackets .closeSequence
  else if c == '}' then r.closeBrackets .closeMapping
  else if c == ',' then r.comma
  else if c == '-' && atSpacing cs then r.item
  else if c == '?' && (r.bracketed || atSpacing cs) then r.key
  else if c == ':' && (r.bracketed || atSpacing cs) then r.value
  else if c == '*' then do
    let name ← anchorName? cs
    r.content (.reference (String.ofList name)) (name.length + 1)
  else if c == '&' then do
    let name ← anchorName? cs
    r.content (.anchor (String.ofList name)) (name.length + 1)
  else if c == '!' then do
    let (tag, length) ← tag? (c :: cs)
    r.content (.tag tag) length
  else if c == '|' && !r.bracketed then r.blockScalar false cs
  else if c == '>' && !r.bracketed then r.blockScalar true cs
  else if c == '\'' then r.quotedScalar false cs
  else if c == '"' then r.quotedScalar true cs
  else if startsPlain r.bracketed c cs then r.plainScalar
  else none

/-- All tokens, in order, from the end of the text. -/
def finish (r : Reader) : Option (List Token) := do
  let r ← (r.closeBlocks 0).dropStart
  return r.tokens.reverse

/-- Reads tokens up to the end of the text. Every token takes at least one character, so `fuel` need
not exceed the number of characters by more than one. -/
def readAll (r : Reader) (fuel : Nat) : Option (List Token) :=
  match fuel with
  | 0 => none
  | fuel + 1 => do
    let here ← r.skipSeparation.dropStale
    let next := here.closeBlocks (here.cursor.column + 1)
    match next.cursor.rest with
    | [] => next.finish
    | c :: cs => (← next.token c cs).readAll fuel

end Reader

/-- The tokens of a text. -/
def tokens? (cs : List Char) : Option (List Token) :=
  if cs.all isAllowed then (Reader.start cs).readAll (cs.length + 1) else none

end ApiBindings.Yaml
