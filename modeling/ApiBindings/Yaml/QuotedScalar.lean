import ApiBindings.Text.Hexadecimal
import ApiBindings.Yaml.Character

/-!
# Quoted scalars

Between quotes line breaks are folded, and the spaces around them vanish. Single quotes know one
escape, the quote written twice; double quotes know escapes that start with a backslash, which also
takes a line break away.
-/

namespace ApiBindings.Yaml

/-- A piece of a quoted scalar: its end, or a value with the number of characters behind its first
one that it takes. -/
inductive Piece where
  | close
  | value (cs : List Char) (extra : Nat)

/-- The breaks of empty lines, and how many characters they take with the gaps of the next line. No
line may mark a bound of the document. -/
def emptyLines? : List Char → Option (List Char × Nat)
  | [] => some ([], 0)
  | c :: cs =>
    if isGap c then (emptyLines? cs).map fun (breaks, n) => (breaks, n + 1)
    else if isBreak c then
      if startsMarker cs then none
      else (emptyLines? cs).map fun (breaks, n) => (breakValue c :: breaks, n + 1)
    else some ([], 0)

/-- What follows a line break inside quotes: the further breaks, and the characters they take. -/
def laterBreaks? (cs : List Char) : Option (List Char × Nat) :=
  if startsMarker cs then none else emptyLines? cs

/-- The piece that starts with the spacing `c`. -/
def spacingPiece? (c : Char) (cs : List Char) : Option Piece :=
  let gaps := (c :: cs).takeWhile isGap
  match (c :: cs).drop gaps.length with
  | [] => none
  | d :: rest =>
    if isBreak d then
      (laterBreaks? rest).map fun (breaks, n) =>
        .value (foldBreaks (breakValue d) breaks) (gaps.length + n)
    else some (.value gaps (gaps.length - 1))

/-- The characters that a single character after a backslash names. -/
def escapes : List (Char × Char) :=
  [('0', '\x00'), ('a', '\x07'), ('b', '\x08'), ('t', '\t'), ('\t', '\t'), ('n', '\n'),
   ('v', '\x0b'), ('f', '\x0c'), ('r', '\r'), ('e', '\x1b'), (' ', ' '), ('"', '"'), ('\\', '\\'),
   ('/', '/'), ('N', '\x85'), ('_', '\xa0'), ('L', '\u2028'), ('P', '\u2029')]

/-- The letters that are followed by a code point, and how many hexadecimal digits it has. -/
def codeWidths : List (Char × Nat) := [('x', 2), ('u', 4), ('U', 8)]

/-- The number of the first `width` hexadecimal digits of a text. -/
def code? (width : Nat) (cs : List Char) : Option Nat :=
  if cs.length < width then none else Text.hexNumber? (cs.take width)

/-- The piece of a code point. Two surrogates in a row are one character. -/
def codePiece? (width : Nat) (cs : List Char) : Option Piece := do
  let n ← code? width cs
  if n.isValidChar then some (.value [Char.ofNat n] (width + 1))
  else if 0xD800 ≤ n && n < 0xDC00 then
    match cs.drop width with
    | '\\' :: 'u' :: rest =>
      let low ← code? 4 rest
      if 0xDC00 ≤ low && low < 0xE000 then
        some (.value [Char.ofNat (0x10000 + (n - 0xD800) * 0x400 + (low - 0xDC00))] (width + 7))
      else none
    | _ => none
  else none

/-- The piece that starts with a backslash. -/
def escapePiece? : List Char → Option Piece
  | [] => none
  | c :: cs =>
    match escapes.lookup c, codeWidths.lookup c with
    | some d, _ => some (.value [d] 1)
    | none, some width => codePiece? width cs
    | none, none =>
      if isBreak c then (laterBreaks? cs).map fun (breaks, n) => .value breaks (n + 1)
      else none

/-- The piece that starts with `c`. -/
def piece? (double : Bool) (c : Char) (cs : List Char) : Option Piece :=
  if isSpacing c then spacingPiece? c cs
  else if double then
    if c == '"' then some .close
    else if c == '\\' then escapePiece? cs
    else some (.value [c] 0)
  else if c == '\'' then
    if cs.head? == some '\'' then some (.value ['\''] 1) else some .close
  else some (.value [c] 0)

/-- The value of a scalar up to its closing quote, and how many characters it takes with the
quote. -/
def quotedScalar? (double : Bool) (cs : List Char) : Option (List Char × Nat) :=
  match cs with
  | [] => none
  | c :: rest =>
    match piece? double c rest with
    | none => none
    | some .close => some ([], 1)
    | some (.value v extra) =>
      (quotedScalar? double (rest.drop extra)).map fun (s, n) => (v ++ s, n + extra + 1)
termination_by cs.length
decreasing_by
  simp only [List.length_drop, List.length_cons]
  omega

end ApiBindings.Yaml
