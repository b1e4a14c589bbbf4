import ApiBindings.Text.Hexadecimal
import ApiBindings.Yaml.Character

/-!
# Properties and directives

In front of a value may stand an anchor, which names it, and a tag, which tells what it is. A tag is
written out between angles, or with a handle that a directive at the start of the document gives a
meaning to.
-/

namespace ApiBindings.Yaml

/-- A tag as it is written: its handle, if it has one, and what follows. -/
structure TagName where
  handle : Option String
  suffix : String
  deriving DecidableEq

/-- A line at the start of a document that begins with a percent sign. -/
inductive Directive where
  | version (major : Nat)
  | handle (name meaning : String)
  | unknown
  deriving DecidableEq

/-- The name that a text starts with; it is not empty. -/
def name? (cs : List Char) : Option (List Char) :=
  let name := cs.takeWhile isNameChar
  if name.isEmpty then none else some name

/-- The characters that may follow the name of an anchor, besides spacing. -/
def nameEnds : List Char := ['?', ':', ',', ']', '}', '%', '@', '\x60']

/-- The name behind the sign of an anchor. -/
def anchorName? (cs : List Char) : Option (List Char) := do
  let name ← name? cs
  if (cs.drop name.length).head?.all fun c => isSpacing c || nameEnds.contains c then some name
  else none

/-! ## Tags -/

/-- Whether a character may occur in a tag. -/
def isTagChar (c : Char) : Bool := isNameChar c || ";/?:@&=+$,.!~*'()[]%".toList.contains c

/-- The bytes of a tag, in which a percent sign comes before the two digits of a byte. -/
def tagBytes? (cs : List Char) : Option (List UInt8) :=
  match cs with
  | [] => some []
  | '%' :: a :: b :: rest => do
    let n ← Text.hexNumber? [a, b]
    return UInt8.ofNat n :: (← tagBytes? rest)
  | c :: rest => if c == '%' then none else (tagBytes? rest).map (UInt8.ofNat c.toNat :: ·)

/-- The tag text that a text starts with, and how many characters it takes; it is not empty. -/
def tagText? (cs : List Char) : Option (String × Nat) := do
  let written := cs.takeWhile isTagChar
  if written.isEmpty then none
  else
    let text ← String.fromUTF8? ⟨(← tagBytes? written).toArray⟩
    return (text, written.length)

/-- The handle that a text starts with: two exclamation marks with a name or nothing in between, or
one in front of a space. -/
def handle? : List Char → Option (List Char)
  | '!' :: cs =>
    if cs.head? == some ' ' then some ['!']
    else
      let name := cs.takeWhile isNameChar
      if (cs.drop name.length).head? == some '!' then some ('!' :: name ++ ['!']) else none
  | _ => none

/-- A tag without the check of what follows it, and how many characters it takes. -/
def tagName? (cs : List Char) : Option (TagName × Nat) :=
  match cs with
  | '!' :: '<' :: rest => do
    let (text, length) ← tagText? rest
    if (rest.drop length).head? == some '>' then some (⟨none, text⟩, length + 3) else none
  | '!' :: rest =>
    if atSpacing rest then some (⟨none, "!"⟩, 1)
    else do
      let word := rest.takeWhile fun c => c != ' ' && !isBreak c
      let handle ← if word.contains '!' then handle? cs else some ['!']
      let (text, length) ← tagText? (cs.drop handle.length)
      return (⟨some (String.ofList handle), text⟩, handle.length + length)
  | _ => none

/-- The tag that a text starts with, and how many characters it takes. -/
def tag? (cs : List Char) : Option (TagName × Nat) := do
  let (tag, length) ← tagName? cs
  if atSpace (cs.drop length) then some (tag, length) else none

/-! ## Directives -/

/-- A text without the spaces at its start. -/
def dropSpaces (cs : List Char) : List Char := cs.dropWhile (· == ' ')

/-- What a version directive gives, and what follows it. -/
def versionDirective? (cs : List Char) : Option (Directive × List Char) :=
  let rest := dropSpaces cs
  let major := rest.takeWhile Char.isDigit
  match rest.drop major.length with
  | '.' :: rest =>
    let minor := rest.takeWhile Char.isDigit
    let rest := rest.drop minor.length
    if !major.isEmpty && !minor.isEmpty && atSpace rest then
      some (.version (major.foldl (fun n c => 10 * n + (c.toNat - 0x30)) 0), rest)
    else none
  | _ => none

/-- What a handle directive gives, and what follows it. -/
def handleDirective? (cs : List Char) : Option (Directive × List Char) := do
  let rest := dropSpaces cs
  let handle ← handle? rest
  let rest := rest.drop handle.length
  if rest.head? == some ' ' then
    let rest := dropSpaces rest
    let (meaning, length) ← tagText? rest
    let rest := rest.drop length
    if atSpace rest then some (.handle (String.ofList handle) meaning, rest) else none
  else none

/-- Whether nothing but spaces and a comment are left on a line. -/
def endsLine (cs : List Char) : Bool :=
  let rest := dropSpaces cs
  atLineEnd rest || rest.head? == some '#'

/-- The directive on a line, from behind its percent sign. -/
def directive? (line : List Char) : Option Directive := do
  let name ← name? line
  let rest := line.drop name.length
  if atSpace rest then
    let (directive, rest) ←
      if String.ofList name == "YAML" then versionDirective? rest
      else if String.ofList name == "TAG" then handleDirective? rest
      else some (.unknown, [])
    if endsLine rest then some directive else none
  else none

end ApiBindings.Yaml
