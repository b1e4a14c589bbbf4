import ApiBindings.Yaml.Character

/-!
# Block scalars

A block scalar holds the indented lines below its header. A literal one keeps its line breaks; in a
folded one the break between two lines that do not start with a gap is folded. The header may tell
how far the lines are indented, else the first line does; and it may tell that the breaks at the end
are all kept or all dropped, else one is kept.
-/

namespace ApiBindings.Yaml

/-- What becomes of the line breaks at the end of a block scalar. -/
inductive Chomping where
  | clip
  | keep
  | strip
  deriving DecidableEq

/-- The header of a block scalar. -/
structure BlockHeader where
  chomping : Chomping
  indentation : Option Nat

/-- The chomping that a character asks for. -/
def chomping? : Char → Option Chomping
  | '+' => some .keep
  | '-' => some .strip
  | _ => none

/-- The indentation that a character gives; it is not zero. -/
def indentation? (c : Char) : Option Nat :=
  if '1' ≤ c && c ≤ '9' then some (c.toNat - 0x30) else none

/-- The header that a text starts with, behind the indicator, and how many characters it takes. -/
def blockHeader? (cs : List Char) : Option (BlockHeader × Nat) :=
  let signs := cs.takeWhile fun c => (chomping? c).isSome || c.isDigit
  match signs with
  | [] => some (⟨.clip, none⟩, 0)
  | [c] =>
    match chomping? c, indentation? c with
    | some k, _ => some (⟨k, none⟩, 1)
    | none, some n => some (⟨.clip, some n⟩, 1)
    | none, none => none
  | [c, d] =>
    match chomping? c, indentation? d, indentation? c, chomping? d with
    | some k, some n, _, _ => some (⟨k, some n⟩, 2)
    | _, _, some n, some k => some (⟨k, some n⟩, 2)
    | _, _, _, _ => none
  | _ => none

/-- How many characters the rest of the line of a header takes, which holds nothing but spaces and a
comment. -/
def restOfLine? (cs : List Char) : Option Nat :=
  let spaces := cs.takeWhile (· == ' ')
  let rest := cs.drop spaces.length
  let comment := if rest.head? == some '#' then rest.takeWhile (!isBreak ·) else []
  if atLineEnd (rest.drop comment.length) then some (spaces.length + comment.length) else none

/-- Breaks, how many characters they take with the spaces among and behind them, the column behind
these, and the greatest column on the way. -/
structure Margin where
  breaks : List Char
  length : Nat
  column : Nat
  widest : Nat

/-- Skips empty lines and the spaces in front of the next one, but no more than `limit` of them if
there is a limit. -/
def skipMargin (limit : Option Nat) (column widest : Nat) : List Char → Margin
  | [] => ⟨[], 0, column, widest⟩
  | c :: cs =>
    if c == ' ' && limit.all (column < ·) then
      let later := skipMargin limit (column + 1) (max widest (column + 1)) cs
      ⟨later.breaks, later.length + 1, later.column, later.widest⟩
    else if isBreak c then
      let later := skipMargin limit 0 widest cs
      ⟨breakValue c :: later.breaks, later.length + 1, later.column, later.widest⟩
    else ⟨[], 0, column, widest⟩

/-- The lines of a block scalar: their value without the last break, that break, the breaks of the
empty lines below, and how many characters all take. -/
structure BlockBody where
  value : List Char
  lastBreak : List Char
  below : List Char
  length : Nat

/-- The lines of a block scalar that is indented by `indent`, from behind the indentation of the
first of them. -/
def blockLines (folded : Bool) (indent : Nat) (cs : List Char) : BlockBody :=
  let line := cs.takeWhile (!isBreak ·)
  match h : cs.dropWhile (!isBreak ·) with
  | [] => ⟨line, [], [], line.length⟩
  | b :: rest =>
    let lineBreak := breakValue b
    let margin := skipMargin (some indent) 0 0 rest
    let next := rest.drop margin.length
    if margin.column == indent && !next.isEmpty then
      let joint :=
        if folded && lineBreak == '\n' && !cs.head?.any isGap && !next.head?.any isGap then
          if margin.breaks.isEmpty then [' '] else []
        else [lineBreak]
      let later := blockLines folded indent next
      ⟨line ++ joint ++ margin.breaks ++ later.value, later.lastBreak, later.below,
        line.length + 1 + margin.length + later.length⟩
    else ⟨line, [lineBreak], margin.breaks, line.length + 1 + margin.length⟩
termination_by cs.length
decreasing_by
  have := (List.dropWhile_suffix (fun c => !isBreak c) (l := cs)).length_le
  rw [h, List.length_cons] at this
  simp only [List.length_drop]
  omega

/-- The value of a block scalar, whose least indentation is `least`, from its first line on, and how
many characters it takes. -/
def blockBody (folded : Bool) (header : BlockHeader) (least : Nat) (cs : List Char) :
    List Char × Nat :=
  let limit := header.indentation.map fun n => least + n - 1
  let margin := skipMargin limit 0 0 cs
  let indent := limit.getD (max least margin.widest)
  let rest := cs.drop margin.length
  let body : BlockBody :=
    if margin.column == indent && !rest.isEmpty then
      let lines := blockLines folded indent rest
      ⟨margin.breaks ++ lines.value, lines.lastBreak, lines.below, lines.length⟩
    else ⟨[], [], margin.breaks, 0⟩
  let tail :=
    match header.chomping with
    | .strip => []
    | .clip => body.lastBreak
    | .keep => body.lastBreak ++ body.below
  (body.value ++ tail, margin.length + body.length)

/-- The value of a block scalar from behind its indicator, and how many characters it takes. -/
def blockScalar? (folded : Bool) (least : Nat) (cs : List Char) : Option (List Char × Nat) := do
  let (header, headerLength) ← blockHeader? cs
  let rest := cs.drop headerLength
  if atSpace rest then
    let restLength ← restOfLine? rest
    match rest.drop restLength with
    | [] => some ([], headerLength + restLength)
    | _ :: lines =>
      let (value, length) := blockBody folded header least lines
      some (value, headerLength + restLength + 1 + length)
  else none

end ApiBindings.Yaml
