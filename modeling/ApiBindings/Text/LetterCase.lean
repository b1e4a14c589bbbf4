import ApiBindings.Text.LetterCase.Table

/-!
# Upper and lower case

Full case conversion by the tables of Unicode. A character may become several, and the lower case
of a capital sigma depends on its place: at the end of a word, that is after a letter with a case
and not before one, it takes the final form.
-/

namespace ApiBindings.Text

/-- The image of a code point under a list of runs. -/
def mapByRuns (runs : List (Nat × Nat × Nat × Nat)) (n : Nat) : Option Nat :=
  runs.findSome? fun (first, last, step, target) =>
    if first ≤ n && n ≤ last && (n - first) % step == 0 then some (target + (n - first)) else none

/-- The image of a character under a table of expansions and a list of runs. -/
def mapChar (expansions : List (Nat × List Nat)) (runs : List (Nat × Nat × Nat × Nat))
    (c : Char) : List Char :=
  match expansions.lookup c.toNat with
  | some image => image.map Char.ofNat
  | none => [((mapByRuns runs c.toNat).map Char.ofNat).getD c]

def upper (cs : List Char) : List Char := cs.flatMap (mapChar upperExpansions upperRuns)

/-- Whether the first character that is not passed over has a case. -/
def startsCased (cs : List Char) : Bool :=
  (cs.dropWhile fun c => inRanges caseIgnorableRanges c.toNat).head?.any fun c =>
    inRanges casedRanges c.toNat

/-- Lower case of a text, where `inWord` tells whether a letter with a case comes before it. -/
def lowerFrom (inWord : Bool) : List Char → List Char
  | [] => []
  | c :: cs =>
    let image :=
      if c == 'Σ' then [if inWord && !startsCased cs then 'ς' else 'σ']
      else mapChar lowerExpansions lowerRuns c
    let inWord :=
      if inRanges caseIgnorableRanges c.toNat then inWord else inRanges casedRanges c.toNat
    image ++ lowerFrom inWord cs

def lower (cs : List Char) : List Char := lowerFrom false cs

def upperText (s : String) : String := String.ofList (upper s.toList)

def lowerText (s : String) : String := String.ofList (lower s.toList)

end ApiBindings.Text
