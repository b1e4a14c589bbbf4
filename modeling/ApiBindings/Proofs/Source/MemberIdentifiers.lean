import ApiBindings.ApiDoc.Routes
import ApiBindings.Proofs.Source.Literals

/-!
# Identifiers of members

C# declares the members of a record and the labels of a union in one scope each, so their
identifiers have to be different, and each has to start with a letter. An identifier keeps only the
plain words of a text. So the identifiers can be declared exactly if every text has a letter before
its first digit and different texts have different plain words (`members_declarable_iff`). Documents
may hold other members and labels (`members_not_declarable`).
-/

namespace ApiBindings.Source

open Text

/-! ## Lines that declare an identifier -/

namespace CSharp

/-- The identifier of a property, if a line declares one. -/
def propertyName? (line : String) : Option String := do
  let declared ← dropStart? "    public ".toList line.toList
  let before ← dropStart? " \x7b get; set; \x7d".toList.reverse declared.reverse
  some (String.ofList (before.takeWhile (· != ' ')).reverse)

/-- The identifier of a label, if a line of an enumeration declares one. -/
def labelName? (line : String) : Option String :=
  (dropStart? "    ".toList line.toList).map fun label =>
    String.ofList (label.takeWhile (· != ','))

end CSharp

theorem propertyName?_propertyLine (m : Member) :
    CSharp.propertyName? (CSharp.propertyLine m) = some (pascalCase m.name) := by
  have hline : (CSharp.propertyLine m).toList = "    public ".toList ++
      ((CSharp.memberType m).toList ++ (' ' :: (pascalCase m.name).toList ++
        " \x7b get; set; \x7d".toList)) := by
    unfold CSharp.propertyLine
    simp [Language.memberName]
  have hend : ((CSharp.memberType m).toList ++ (' ' :: (pascalCase m.name).toList ++
      " \x7b get; set; \x7d".toList)).reverse = " \x7b get; set; \x7d".toList.reverse ++
        ((pascalCase m.name).toList.reverse ++ ' ' :: (CSharp.memberType m).toList.reverse) := by
    simp
  have hname : ∀ c ∈ (pascalCase m.name).toList.reverse, (c != ' ') = true := fun c hc =>
    bne_of_mem_pascalCase (List.mem_reverse.1 hc) rfl
  rw [CSharp.propertyName?, dropStart?_eq_some_iff.2 hline]
  simp only [Option.bind_eq_bind, Option.bind_some]
  rw [dropStart?_eq_some_iff.2 hend, Option.bind_some, List.takeWhile_append_of_pos hname]
  simp

theorem labelName?_line (label : String) {rest : List Char} {line : String}
    (h : line.toList = "    ".toList ++ ((pascalCase label).toList ++ rest))
    (hrest : rest.takeWhile (· != ',') = []) :
    CSharp.labelName? line = some (pascalCase label) := by
  have hlabel : ∀ c ∈ (pascalCase label).toList, (c != ',') = true := fun c hc =>
    bne_of_mem_pascalCase hc rfl
  rw [CSharp.labelName?, dropStart?_eq_some_iff.2 h, Option.map_some,
    List.takeWhile_append_of_pos hlabel, hrest, List.append_nil, String.ofList_toList]

theorem filterMap_propertyName? (name n : String) (members : List Member) :
    (CSharp.declarationLines name (.record n members)).filterMap CSharp.propertyName? =
      (members.map Member.name).map pascalCase := by
  have hcomment : ∀ text, CSharp.propertyName? ("    /// " ++ text) = none := by
    simp [CSharp.propertyName?, dropStart?]
  have houter : ∀ line, dropStart? "    ".toList line.toList = none →
      CSharp.propertyName? line = none := by
    intro line hline
    have hstart : "    public ".toList = "    ".toList ++ "public ".toList := rfl
    rw [CSharp.propertyName?, hstart, dropStart?_append, hline]
    rfl
  have hattribute : ∀ text, CSharp.propertyName? (CSharp.attributeLine text) = none := by
    intro text
    unfold CSharp.attributeLine
    simp [CSharp.propertyName?, dropStart?]
  have hmember : ∀ m : Member, [CSharp.attributeLine m.name, CSharp.propertyLine m].filterMap
      CSharp.propertyName? = [pascalCase m.name] := by
    intro m
    simp [hattribute, propertyName?_propertyLine]
  rw [filterMap_recordLines hcomment houter]
  simp only [hmember, List.map_map]
  exact (List.map_eq_flatMap).symm

theorem filterMap_caseLines (cases : List String) :
    (CSharp.caseLines cases).filterMap CSharp.labelName? = cases.map pascalCase := by
  induction cases with
  | nil => rfl
  | cons label labels ih =>
    cases labels with
    | nil =>
      have hline : ("    " ++ pascalCase label).toList =
          "    ".toList ++ ((pascalCase label).toList ++ []) := by simp
      rw [CSharp.caseLines, List.filterMap_cons_some (labelName?_line label hline rfl)]
      rfl
    | cons next labels =>
      have hline : ("    " ++ pascalCase label ++ ",").toList =
          "    ".toList ++ ((pascalCase label).toList ++ [',']) := by simp
      rw [CSharp.caseLines, List.filterMap_cons_some (labelName?_line label hline rfl), ih]
      · rfl
      · exact List.cons_ne_nil _ _

theorem filterMap_labelName? (name n : String) (cases : List String) :
    (CSharp.declarationLines name (.union n cases)).filterMap CSharp.labelName? =
      cases.map pascalCase := by
  have hfirst : ["", "public enum " ++ Language.cSharp.typeName name, "\x7b"].filterMap
      CSharp.labelName? = [] := by
    simp [CSharp.labelName?, dropStart?]
  rw [CSharp.declarationLines, List.filterMap_append, List.filterMap_append, hfirst,
    filterMap_caseLines]
  exact List.append_nil _

/-! ## Identifiers of one scope -/

/-- Whether identifiers can be declared together: they are different, and each starts with something
other than a digit. -/
def Declarable (identifiers : List String) : Prop :=
  identifiers.Nodup ∧
    ∀ identifier ∈ identifiers, ∃ c ∈ identifier.toList.head?, isDecimalDigit c = false

/-- Whether texts are still apart by their words: each has a letter before its first digit, and no
two have the same plain words. -/
def ApartByWords (texts : List String) : Prop :=
  (∀ text ∈ texts, ∃ c ∈ text.toList.find? isWordChar, c.isAlpha) ∧
    texts.Pairwise fun s t => plainWords s ≠ plainWords t

section Scope

variable {texts : List String}

theorem starts_with_letter_iff (text : String) :
    (∃ c ∈ (pascalCase text).toList.head?, isDecimalDigit c = false) ↔
      ∃ c ∈ text.toList.find? isWordChar, c.isAlpha := by
  rw [head?_pascalCase]
  cases hfirst : text.toList.find? isWordChar with
  | none => simp
  | some c =>
    have hletter : isDecimalDigit c.toUpper = false ↔ c.isAlpha := by
      constructor
      · intro h
        refine (isWordChar_iff.1 (List.find?_some hfirst)).resolve_right fun hdigit => ?_
        rw [toUpper_of_isDecimalDigit hdigit, hdigit] at h
        cases h
      · intro h
        exact not_isDecimalDigit_of_isAlpha (by simpa using h)
    simpa using hletter

theorem declarable_iff : Declarable (texts.map pascalCase) ↔ ApartByWords texts := by
  have hdifferent : (texts.map pascalCase).Nodup ↔
      texts.Pairwise fun s t => plainWords s ≠ plainWords t := by
    rw [List.Nodup, List.pairwise_map]
    simp only [ne_eq, pascalCase_eq_iff]
  rw [Declarable, ApartByWords, hdifferent, List.forall_mem_map, and_comm]
  exact and_congr_left' (forall₂_congr fun text _ => starts_with_letter_iff text)

/-- **Members and labels are apart as far as their words are.** The identifiers of the labels of a
union can be declared together in C# exactly if the labels are apart by their words, and those of
the properties of a record exactly if the names of its members are. -/
theorem members_declarable_iff (name n : String) :
    (∀ cases, Declarable ((CSharp.declarationLines name (.union n cases)).filterMap
        CSharp.labelName?) ↔ ApartByWords cases) ∧
    ∀ members, Declarable ((CSharp.declarationLines name (.record n members)).filterMap
        CSharp.propertyName?) ↔ ApartByWords (members.map Member.name) := by
  constructor
  · intro cases
    rw [filterMap_labelName?, declarable_iff]
  · intro members
    rw [filterMap_propertyName?, declarable_iff]

/-- An entry of apiDoc data for a route that answers with two names of the same words, and with
labels of signs and digits. -/
def voteEntry : Value := .mapping
  [(.text "type", .text "get"), (.text "url", .text "/vote"), (.text "name", .text "GetVote"),
    (.text "group", .text "Vote"),
    (.text "success", .mapping [(.text "fields", .mapping [(.text "Success 200", .list
      [.mapping [(.text "field", .text "id"), (.text "type", .text "Integer")],
      .mapping [(.text "field", .text "_id"), (.text "type", .text "String")],
      .mapping [(.text "field", .text "vote"), (.text "type", .text "String"),
        (.text "allowedValues", .list [.text "+1", .text "-1", .text "*"])]])])])]

def voteType : Ty := .union "GetVote response vote" ["+1", "-1", "*"]

def voteMembers : List Member :=
  [⟨"id", none, .primitive .integer, false⟩, ⟨"_id", none, .primitive .string, false⟩,
    ⟨"vote", none, voteType, false⟩]

def voteRoute : Route :=
  ⟨"GetVote", none, .get, "/vote", "Vote", "", [], none,
    some (.record "GetVote response" voteMembers)⟩

def voteTypes : Declarations :=
  ⟨[("GetVote response", .record "GetVote response" voteMembers),
    ("GetVote response vote", voteType)]⟩

/-- Both `id` and `_id` have the identifier `Id`, the labels `+1` and `-1` have the identifier `1`,
and `*` has an empty one. -/
theorem members_not_declarable : ∃ entries routes,
    ApiDoc.routesOf entries = .ok routes ∧
    Declarations.ofRoutes false routes = .ok voteTypes ∧
    (voteMembers.map Member.name).Nodup ∧ ["+1", "-1", "*"].Nodup ∧
    (CSharp.declarationLines "GetVote response"
      (.record "GetVote response" voteMembers)).filterMap CSharp.propertyName? =
        ["Id", "Id", "Vote"] ∧
    (CSharp.declarationLines "GetVote response vote" voteType).filterMap
      CSharp.labelName? = ["1", "1", ""] ∧
    ¬ Declarable ["Id", "Id", "Vote"] ∧ ¬ Declarable ["1", "1", ""] := by
  have hroutes : ApiDoc.routesOf [voteEntry] = .ok [voteRoute] := rfl
  have hdeclared : Declarations.ofRoutes false [voteRoute] = .ok voteTypes := rfl
  refine ⟨[voteEntry], [voteRoute], hroutes, hdeclared, ?_, ?_, ?_, ?_, ?_, ?_⟩
  · decide
  · decide
  · rw [filterMap_propertyName?]
    rfl
  · rw [voteType, filterMap_labelName?]
    rfl
  · simp [Declarable]
  · simp [Declarable]

end Scope

end ApiBindings.Source
