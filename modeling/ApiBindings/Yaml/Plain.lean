import ApiBindings.Yaml.Character

/-!
# Plain scalars

A scalar without quotes runs up to a colon with spacing behind it, to a comment, or, inside
brackets, to an indicator. It goes on over line breaks, which are folded, as long as its lines are
indented and none marks a bound of the document.
-/

namespace ApiBindings.Yaml

/-- Whether a plain scalar ends in front of `c`, which `rest` follows. -/
def endsPlain (bracketed : Bool) (c : Char) (rest : List Char) : Bool :=
  isSpacing c ||
    (c == ':' && (atSpacing rest || (bracketed && rest.head?.any isIndicator))) ||
    (bracketed && (isIndicator c || c == '?'))

/-- How many characters a plain scalar takes up to the next spacing. -/
def runLength (bracketed : Bool) : List Char → Nat
  | [] => 0
  | c :: cs => if endsPlain bracketed c cs then 0 else runLength bracketed cs + 1

/-- What lies between a line break and the next word: the breaks on the way, how many characters
they take with the spaces, the column of the word, and whether a document marker stands there. -/
structure BlankLines where
  breaks : List Char
  length : Nat
  column : Nat
  atMarker : Bool

/-- Skips spaces and empty lines. -/
def blankLines (column : Nat) : List Char → BlankLines
  | [] => ⟨[], 0, column, false⟩
  | c :: cs =>
    if c == ' ' then
      let later := blankLines (column + 1) cs
      ⟨later.breaks, later.length + 1, later.column, later.atMarker⟩
    else if isBreak c then
      if startsMarker cs then ⟨[breakValue c], 1, 0, true⟩
      else
        let later := blankLines 0 cs
        ⟨breakValue c :: later.breaks, later.length + 1, later.column, later.atMarker⟩
    else ⟨[], 0, column, false⟩

/-- What lies between two words of a plain scalar: its value, how many characters it takes, and the
column of the next word if that stands on a later line. A gap without a value ends the scalar. -/
structure Gap where
  value : List Char
  length : Nat
  column : Option Nat

/-- The gap that a text starts with. -/
def plainGap (cs : List Char) : Gap :=
  let spaces := cs.takeWhile (· == ' ')
  match cs.drop spaces.length with
  | c :: rest =>
    if isBreak c then
      if startsMarker rest then ⟨[], spaces.length + 1, some 0⟩
      else
        let later := blankLines 0 rest
        ⟨if later.atMarker then [] else foldBreaks (breakValue c) later.breaks,
          spaces.length + 1 + later.length, some later.column⟩
    else ⟨spaces, spaces.length, none⟩
  | [] => ⟨spaces, spaces.length, none⟩

/-- A plain scalar: its value, how many characters it takes with the gap behind it, and whether that
gap breaks the line. -/
structure PlainScalar where
  value : List Char
  length : Nat
  breaksLine : Bool

/-- The plain scalar that a text starts with; its later lines are indented by `margin` at least. -/
def plainScalar (bracketed : Bool) (margin : Nat) (cs : List Char) : PlainScalar :=
  match cs with
  | [] => ⟨[], 0, false⟩
  | c :: rest =>
    if endsPlain bracketed c rest then ⟨[], 0, false⟩
    else
      let run := runLength bracketed rest + 1
      let gap := plainGap ((c :: rest).drop run)
      let next := rest.drop (run - 1 + gap.length)
      let only : PlainScalar := ⟨(c :: rest).take run, run + gap.length, gap.column.isSome⟩
      if gap.value.isEmpty || next.head? == some '#' ||
          (!bracketed && gap.column.any (· < margin)) then only
      else
        let later := plainScalar bracketed margin next
        if later.length == 0 then only
        else
          ⟨only.value ++ gap.value ++ later.value, only.length + later.length, later.breaksLine⟩
termination_by cs.length
decreasing_by
  simp only [List.length_drop, List.length_cons]
  omega

end ApiBindings.Yaml
