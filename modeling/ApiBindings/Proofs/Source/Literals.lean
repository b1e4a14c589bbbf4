import ApiBindings.ApiDoc.Routes
import ApiBindings.Proofs.Text.Quotation
import ApiBindings.Proofs.Text.Words
import ApiBindings.Source.CSharp
import ApiBindings.Source.TypeScript
import ApiBindings.Text.Hexadecimal

/-!
# Literals in clients

A client writes texts of the model in quotes: TypeScript the labels of a union, and C# the name of a
member above its property. It writes them as they are, without escapes. So a reader of the language
gets exactly those texts back that have none of the characters with a meaning of their own between
quotes (`literals_read_back_iff`). Documents may hold other texts, and their literals denote
something else or nothing (`literals_not_read_back`).
-/

namespace ApiBindings.Source

open Text

/-! ## Escapes -/

/-- The units of the code point that some hexadecimal digits name, with the number of characters, of
which `around` are no digits. -/
def numbered? (around : Nat) (digits : List Char) : Option (List Nat × Nat) := do
  let n ← hexNumber? digits
  if n < 0x110000 then some (codeUnits n, digits.length + around) else none

/-- The units of a code point of exactly `width` digits after one letter. -/
def fixed? (width : Nat) (cs : List Char) : Option (List Nat × Nat) :=
  if width ≤ cs.length then numbered? 1 (cs.take width) else none

/-- A character that is named by the one after the backslash. -/
def named? (names : List (Char × Nat)) (c : Char) : Option (List Nat × Nat) :=
  (names.lookup c).map fun n => ([n], 1)

section Escapes

variable {around width n : Nat} {c : Char} {cs digits : List Char} {us : List Nat}
  {names : List (Char × Nat)}

/-- No code point has more units than its escape has characters. -/
theorem numbered?_shortens (h : numbered? around digits = some (us, n)) (hdigits : digits ≠ [])
    (haround : 0 < around) (hcs : digits.length ≤ cs.length) :
    us.length ≤ size ((c :: cs).take n) := by
  obtain ⟨code, -, h⟩ := Option.bind_eq_some_iff.1 h
  split_ifs at h
  cases h
  have hunits := codeUnits_length code
  have hpos := List.length_pos_iff.2 hdigits
  have hsize := length_le_size ((c :: cs).take (digits.length + around))
  rw [List.length_take, List.length_cons] at hsize
  omega

theorem fixed?_shortens (h : fixed? width cs = some (us, n)) (hwidth : 0 < width) :
    us.length ≤ size ((c :: cs).take n) := by
  rw [fixed?] at h
  split_ifs at h with hcs
  have hlength : (cs.take width).length = width := List.length_take_of_le hcs
  refine numbered?_shortens h (List.ne_nil_of_length_pos ?_) Nat.one_pos ?_ <;> omega

theorem named?_shortens (h : named? names c = some (us, n)) :
    us.length ≤ size ((c :: cs).take n) := by
  obtain ⟨code, -, h⟩ := Option.map_eq_some_iff.1 h
  cases h
  exact length_le_size [c]

end Escapes

/-! ## Literals of TypeScript -/

namespace TypeScript

/-- The characters with a name. -/
def escapeNames : List (Char × Nat) :=
  [('b', 0x8), ('t', 0x9), ('n', 0xA), ('v', 0xB), ('f', 0xC), ('r', 0xD)]

/-- The code point in braces that follows an `u`. -/
def bracedCode? (cs : List Char) : Option (List Nat × Nat) :=
  let digits := cs.takeWhile (· != '\x7d')
  if digits ≠ [] ∧ digits.length < cs.length then numbered? 3 digits else none

/-- What an escape stands for. A line break after the backslash stands for nothing, and a character
without a meaning of its own for itself. -/
def escape? : List Char → Option (List Nat × Nat)
  | [] => none
  | c :: cs =>
    if c = 'x' then fixed? 2 cs
    else if c = 'u' then
      if cs.head? = some '\x7b' then bracedCode? cs.tail else fixed? 4 cs
    else if c = '0' ∧ ¬ cs.head?.any Char.isDigit then some ([0], 1)
    else if c.isDigit then none
    else if c = '\r' ∧ cs.head? = some '\n' then some ([], 2)
    else if c ∈ ['\n', '\r', '\u2028', '\u2029'] then some ([], 1)
    else (named? escapeNames c).or (some (codeUnits c.toNat, 1))

theorem escape?_shortens {cs : List Char} {us : List Nat} {n : Nat}
    (h : escape? cs = some (us, n)) : us.length ≤ size (cs.take n) := by
  cases cs with
  | nil => cases h
  | cons c cs =>
    rw [escape?] at h
    split_ifs at h
    · exact fixed?_shortens h Nat.two_pos
    · rw [bracedCode?] at h
      split_ifs at h with hdigits
      have htail := cs.length_tail
      exact numbered?_shortens h hdigits.1 (Nat.succ_pos 2) (by omega)
    · exact fixed?_shortens h (Nat.succ_pos 3)
    · cases h
      exact length_le_size [c]
    · cases h
      exact Nat.zero_le _
    · cases h
      exact Nat.zero_le _
    · rcases Option.or_eq_some_iff.1 h with h | ⟨-, h⟩
      · exact named?_shortens h
      · cases h
        simp [size]

/-- How TypeScript writes texts, in quotes of either kind. -/
def quotation (quote : Char) : Quotation where
  quote := quote
  breaks := ['\n', '\r']
  escape? := escape?
  shortens := escape?_shortens

example : (quotation '\'').literal? "'it\\'s \\uD83D\\uDE00' | 'b'".toList =
    some ("it's 😀".toList, " | 'b'".toList) := by
  decide +kernel

def aliasLine (name : String) (cases : List String) : String :=
  "export type " ++ Language.typeScript.typeName name ++ " = " ++ labelUnion cases ++ ";"

/-- The labels of a union, if a line declares one. -/
def labelsOfAlias? (line : String) : Option (List String) := do
  let declared ← dropStart? "export type ".toList line.toList
  let value ← dropStart? " = ".toList (declared.dropWhile (· != ' '))
  if value.getLast? = some ';' then
    let texts ← (quotation '\'').list? " | ".toList value.dropLast
    some (texts.map String.ofList)
  else none

end TypeScript

/-! ## Literals of C# -/

namespace CSharp

/-- The characters with a name. -/
def escapeNames : List (Char × Nat) :=
  [('\'', 0x27), ('"', 0x22), ('\\', 0x5C), ('0', 0x0), ('a', 0x7), ('b', 0x8), ('f', 0xC),
   ('n', 0xA), ('r', 0xD), ('t', 0x9), ('v', 0xB)]

/-- What an escape stands for. -/
def escape? : List Char → Option (List Nat × Nat)
  | [] => none
  | c :: cs =>
    if c = 'x' then
      let digits := (cs.takeWhile fun d => (hexValue? d).isSome).take 4
      if digits ≠ [] then numbered? 1 digits else none
    else if c = 'u' then fixed? 4 cs
    else if c = 'U' then fixed? 8 cs
    else named? escapeNames c

theorem escape?_shortens {cs : List Char} {us : List Nat} {n : Nat}
    (h : escape? cs = some (us, n)) : us.length ≤ size (cs.take n) := by
  cases cs with
  | nil => cases h
  | cons c cs =>
    rw [escape?] at h
    simp only at h
    split_ifs at h with hx hdigits
    · refine numbered?_shortens h hdigits Nat.one_pos ?_
      exact (List.length_take_le' _ _).trans (List.takeWhile_sublist _).length_le
    · exact fixed?_shortens h (Nat.succ_pos 3)
    · exact fixed?_shortens h (Nat.succ_pos 7)
    · exact named?_shortens h

/-- How C# writes texts. -/
def quotation : Quotation where
  quote := '"'
  breaks := ['\n', '\r', '\u0085', '\u2028', '\u2029']
  escape? := escape?
  shortens := escape?_shortens

example : quotation.literal? "\"5\\\" \\x41\")]".toList = some ("5\" A".toList, ")]".toList) := by
  decide +kernel

/-- The attribute of a property with the name of a member. -/
def attributeLine (name : String) : String := "    [JsonProperty(\"" ++ name ++ "\")]"

/-- The property for a member. -/
def propertyLine (m : Member) : String :=
  "    public " ++ memberType m ++ " " ++ Language.cSharp.memberName m.name ++
    " \x7b get; set; \x7d"

/-- The name in the attribute of a property, if a line is one. -/
def attributeName? (line : String) : Option String := do
  let argument ← dropStart? "    [JsonProperty(".toList line.toList
  let (name, rest) ← quotation.literal? argument
  if rest = ")]".toList then some (String.ofList name) else none

end CSharp

/-! ## Reading them back -/

section ReadBack

variable {name : String} {cases : List String}

theorem bne_of_mem_pascalCase {s : String} {c separator : Char} (h : c ∈ (pascalCase s).toList)
    (hseparator : isWordChar separator = false) : (c != separator) = true := by
  refine bne_iff_ne.2 fun heq => ?_
  have hword := isWordChar_of_mem_pascalCase h
  rw [heq, hseparator] at hword
  cases hword

theorem toList_labelUnion (cases : List String) :
    (TypeScript.labelUnion cases).toList =
      (TypeScript.quotation '\'').write " | ".toList (cases.map String.toList) := by
  rw [TypeScript.labelUnion, String.toList_intercalate, Quotation.write, List.map_map, List.map_map]
  refine congrArg _ (List.map_congr_left fun label _ => ?_)
  simp [Quotation.enclose, TypeScript.quotation]

/-- What an alias is read as depends on its row of literals only. -/
theorem labelsOfAlias?_aliasLine (name : String) (cases : List String) :
    TypeScript.labelsOfAlias? (TypeScript.aliasLine name cases) =
      ((TypeScript.quotation '\'').list? " | ".toList (TypeScript.labelUnion cases).toList).map
        (·.map String.ofList) := by
  have hline : (TypeScript.aliasLine name cases).toList = "export type ".toList ++
      ((pascalCase name).toList ++ (" = ".toList ++
        ((TypeScript.labelUnion cases).toList ++ [';']))) := by
    unfold TypeScript.aliasLine
    simp [Language.typeName]
  have hname : ∀ c ∈ (pascalCase name).toList, (c != ' ') = true := fun c hc =>
    bne_of_mem_pascalCase hc rfl
  have hvalue : ((pascalCase name).toList ++ (" = ".toList ++
      ((TypeScript.labelUnion cases).toList ++ [';']))).dropWhile (· != ' ') =
      " = ".toList ++ ((TypeScript.labelUnion cases).toList ++ [';']) := by
    rw [List.dropWhile_append_of_pos hname]
    rfl
  rw [TypeScript.labelsOfAlias?, dropStart?_eq_some_iff.2 hline]
  simp only [Option.bind_eq_bind, Option.bind_some, hvalue, dropStart?_eq_some_iff.2 rfl]
  simp [Option.map_eq_bind]

theorem labelsOfAlias?_aliasLine_iff :
    TypeScript.labelsOfAlias? (TypeScript.aliasLine name cases) = some cases ↔
      ∀ label ∈ cases, ∀ c ∈ label.toList, c ∉ (TypeScript.quotation '\'').reserved := by
  have hread : TypeScript.labelsOfAlias? (TypeScript.aliasLine name cases) = some cases ↔
      (TypeScript.quotation '\'').list? " | ".toList ((TypeScript.quotation '\'').write
        " | ".toList (cases.map String.toList)) = some (cases.map String.toList) := by
    rw [labelsOfAlias?_aliasLine, toList_labelUnion]
    constructor
    · intro h
      obtain ⟨texts, htexts, rfl⟩ := Option.map_eq_some_iff.1 h
      simpa using htexts
    · intro h
      exact Option.map_eq_some_iff.2 ⟨_, h, by simp⟩
  rw [hread, Quotation.list?_write_iff, List.forall_mem_map]

theorem attributeName?_attributeLine_iff :
    CSharp.attributeName? (CSharp.attributeLine name) = some name ↔
      ∀ c ∈ name.toList, c ∉ CSharp.quotation.reserved := by
  have hline : (CSharp.attributeLine name).toList = "    [JsonProperty(".toList ++
      (CSharp.quotation.enclose name.toList ++ ")]".toList) := by
    have hopen : "    [JsonProperty(\"".toList = "    [JsonProperty(".toList ++ ['"'] := rfl
    have hclose : "\")]".toList = '"' :: ")]".toList := rfl
    unfold CSharp.attributeLine
    simp only [String.toList_append, hopen, hclose, Quotation.enclose, List.append_assoc]
    rfl
  have hread : CSharp.attributeName? (CSharp.attributeLine name) = some name ↔
      CSharp.quotation.literal? (CSharp.quotation.enclose name.toList ++ ")]".toList) =
        some (name.toList, ")]".toList) := by
    rw [CSharp.attributeName?, dropStart?_eq_some_iff.2 hline]
    simp only [Option.bind_eq_bind, Option.bind_some]
    constructor
    · intro h
      obtain ⟨⟨text, rest⟩, hliteral, h⟩ := Option.bind_eq_some_iff.1 h
      simp only at h
      split_ifs at h with hrest
      rw [hliteral, hrest, ← Option.some.inj h, String.toList_ofList (l := text)]
    · intro h
      rw [h, Option.bind_some, if_pos rfl, String.ofList_toList]
  rw [hread, Quotation.literal?_enclose_iff]

/-- A reader that passes over comments reads a member from its attribute and its property. -/
theorem filterMap_memberLines {α : Type} {read : String → Option α}
    (hcomment : ∀ text, read ("    /// " ++ text) = none) (m : Member) :
    (CSharp.memberLines m).filterMap read =
      [CSharp.attributeLine m.name, CSharp.propertyLine m].filterMap read := by
  have hsummary : ∀ description,
      (CSharp.summaryLines "    " description).filterMap read = [] := by
    intro description
    have hdescription : "    " ++ "/// " ++ description = "    /// " ++ description := rfl
    refine List.filterMap_eq_nil_iff.2 fun line hline => ?_
    rw [CSharp.summaryLines, hdescription] at hline
    rcases List.mem_cons.1 hline with rfl | hline
    · exact hcomment "<summary>"
    rcases List.mem_pair.1 hline with rfl | rfl
    · exact hcomment description
    · exact hcomment "</summary>"
  unfold CSharp.memberLines
  rw [List.filterMap_append]
  split
  · rfl
  · rw [hsummary]
    rfl
  · rfl

/-- A reader that also passes over lines that are not indented reads a class from its members. -/
theorem filterMap_recordLines {α : Type} {read : String → Option α}
    (hcomment : ∀ text, read ("    /// " ++ text) = none)
    (houter : ∀ line, dropStart? "    ".toList line.toList = none → read line = none)
    (name n : String) (members : List Member) :
    (CSharp.declarationLines name (.record n members)).filterMap read =
      members.flatMap fun m =>
        [CSharp.attributeLine m.name, CSharp.propertyLine m].filterMap read := by
  have hfirst :
      ["", "public class " ++ Language.cSharp.typeName name, "\x7b"].filterMap read = [] := by
    refine List.filterMap_eq_nil_iff.2 fun line hline => houter line ?_
    rcases List.mem_cons.1 hline with rfl | hline
    · rfl
    rcases List.mem_pair.1 hline with rfl | rfl
    · simp [dropStart?]
    · rfl
  have hlast : ["\x7d"].filterMap read = [] :=
    List.filterMap_eq_nil_iff.2 fun line hline => houter line (by
      rw [List.mem_singleton.1 hline]
      rfl)
  rw [CSharp.declarationLines, List.filterMap_append, List.filterMap_append, hfirst, hlast,
    List.nil_append, List.append_nil, List.filterMap_flatMap]
  exact List.flatMap_congr fun m _ => filterMap_memberLines hcomment m

theorem filterMap_attributeName? (name n : String) (members : List Member) :
    (CSharp.declarationLines name (.record n members)).filterMap CSharp.attributeName? =
      members.filterMap fun m => CSharp.attributeName? (CSharp.attributeLine m.name) := by
  have hproperty : ∀ m, CSharp.attributeName? (CSharp.propertyLine m) = none := by
    intro m
    unfold CSharp.propertyLine
    simp [CSharp.attributeName?, dropStart?]
  have houter : ∀ line, dropStart? "    ".toList line.toList = none →
      CSharp.attributeName? line = none := by
    intro line hline
    have hstart : "    [JsonProperty(".toList = "    ".toList ++ "[JsonProperty(".toList := rfl
    rw [CSharp.attributeName?, hstart, dropStart?_append, hline]
    rfl
  rw [filterMap_recordLines (by simp [CSharp.attributeName?, dropStart?]) houter,
    List.filterMap_eq_flatMap_toList]
  refine List.flatMap_congr fun m _ => ?_
  rw [List.filterMap_eq_flatMap_toList, List.flatMap_cons, List.flatMap_singleton, hproperty]
  exact List.append_nil _

theorem filterMap_unionLines (name n : String) (cases : List String) :
    (TypeScript.declarationLines name (.union n cases)).filterMap TypeScript.labelsOfAlias? =
      (TypeScript.labelsOfAlias? (TypeScript.aliasLine name cases)).toList := by
  have hempty : TypeScript.labelsOfAlias? "" = none := by
    simp [TypeScript.labelsOfAlias?, dropStart?]
  rw [TypeScript.declarationLines, List.filterMap_eq_flatMap_toList, List.flatMap_cons,
    List.flatMap_singleton, hempty]
  exact List.nil_append _

theorem labels_read_back_iff (name n : String) (cases : List String) :
    (TypeScript.declarationLines name (.union n cases)).filterMap TypeScript.labelsOfAlias? =
        [cases] ↔
      ∀ label ∈ cases, ∀ c ∈ label.toList, c ∉ (TypeScript.quotation '\'').reserved := by
  rw [filterMap_unionLines, Option.toList_eq_singleton_iff, labelsOfAlias?_aliasLine_iff]

theorem names_read_back_iff (name n : String) (members : List Member) :
    (CSharp.declarationLines name (.record n members)).filterMap CSharp.attributeName? =
        members.map Member.name ↔
      ∀ m ∈ members, ∀ c ∈ m.name.toList, c ∉ CSharp.quotation.reserved := by
  rw [filterMap_attributeName?, List.filterMap_eq_map_iff_forall_eq_some]
  exact forall₂_congr fun m _ => attributeName?_attributeLine_iff

/-- **Texts without reserved characters are read back, and no others.** The alias of a union is read
as its labels exactly if they have no quote, backslash or line break, and the attributes of a record
are read as the names of its members exactly if the names have none. -/
theorem literals_read_back_iff (name n : String) :
    (∀ cases, (TypeScript.declarationLines name (.union n cases)).filterMap
        TypeScript.labelsOfAlias? = [cases] ↔
      ∀ label ∈ cases, ∀ c ∈ label.toList, c ∉ ['\'', '\\', '\n', '\r']) ∧
    ∀ members, (CSharp.declarationLines name (.record n members)).filterMap
        CSharp.attributeName? = members.map Member.name ↔
      ∀ m ∈ members, ∀ c ∈ m.name.toList,
        c ∉ ['"', '\\', '\n', '\r', '\u0085', '\u2028', '\u2029'] :=
  ⟨labels_read_back_iff name n, names_read_back_iff name n⟩

/-- An entry of apiDoc data for a route that answers with a label and a name with quotes in them. -/
def moodEntry : Value := .mapping
  [(.text "type", .text "get"), (.text "url", .text "/mood"), (.text "name", .text "GetMood"),
    (.text "group", .text "Mood"),
    (.text "success", .mapping [(.text "fields", .mapping [(.text "Success 200", .list
      [.mapping [(.text "field", .text "mood"), (.text "type", .text "String"),
        (.text "allowedValues", .list [.text "it's"])],
      .mapping [(.text "field", .text "size\""), (.text "type", .text "String")]])])])]

def moodType : Ty := .union "GetMood response mood" ["it's"]

def moodMembers : List Member :=
  [⟨"mood", none, moodType, false⟩, ⟨"size\"", none, .primitive .string, false⟩]

def moodRoute : Route :=
  ⟨"GetMood", none, .get, "/mood", "Mood", "", [], none,
    some (.record "GetMood response" moodMembers)⟩

/-- The label `it's` ends its own literal, and so does the name `size"`. -/
theorem literals_not_read_back : ∃ entries routes d,
    ApiDoc.routesOf entries = .ok routes ∧ Declarations.ofRoutes false routes = .ok d ∧
    d.entries = [("GetMood response", .record "GetMood response" moodMembers),
      ("GetMood response mood", moodType)] ∧
    TypeScript.declarationLines "GetMood response mood" moodType =
      ["", "export type GetMoodResponseMood = 'it's';"] ∧
    (TypeScript.declarationLines "GetMood response mood" moodType).filterMap
      TypeScript.labelsOfAlias? ≠ [["it's"]] ∧
    (CSharp.declarationLines "GetMood response"
      (.record "GetMood response" moodMembers)).filterMap CSharp.attributeName? ≠
        ["mood", "size\""] := by
  have hroutes : ApiDoc.routesOf [moodEntry] = .ok [moodRoute] := rfl
  have hdeclared : Declarations.ofRoutes false [moodRoute] =
      .ok ⟨[("GetMood response", .record "GetMood response" moodMembers),
        ("GetMood response mood", moodType)]⟩ := rfl
  refine ⟨[moodEntry], [moodRoute], _, hroutes, hdeclared, rfl, ?_, ?_, ?_⟩
  · rfl
  · intro h
    have hlabel := (labels_read_back_iff _ _ _).1 h "it's" List.mem_cons_self '\''
    exact hlabel (by simp) List.mem_cons_self
  · intro h
    have hname := (names_read_back_iff _ _ moodMembers).1 h
    exact hname ⟨"size\"", none, .primitive .string, false⟩ (by simp [moodMembers]) '"' (by simp)
      List.mem_cons_self

end ReadBack

end ApiBindings.Source
