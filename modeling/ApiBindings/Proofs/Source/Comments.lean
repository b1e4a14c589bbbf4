import ApiBindings.Model
import ApiBindings.Proofs.ApiDoc.Descriptions
import ApiBindings.Proofs.Grouping
import ApiBindings.Proofs.Source.Literals
import ApiBindings.Proofs.Text.Comments

/-!
# Descriptions in clients

A client writes the descriptions of members and functions in comments, as they are. TypeScript has
block comments, so a description must not have the end of one in it. C# has comments that go to the
end of a line, so of a description only what stands before its first line break is in the comment,
unless the lines after it are comments by themselves (`descriptions_enclosed_iff`). The descriptions
in apiDoc data have no line breaks, since they are cleaned. OpenAPI documents may hold others
(`description_leaves_comments`).
-/

namespace ApiBindings.Source

open Text

/-! ## Comments -/

/-- Where a client has descriptions: above a member of a record, and above a function. -/
inductive Site where
  | member
  | function
  deriving DecidableEq, Repr

namespace Language

/-- What stands before a description in its comment. -/
def opening : Language → Site → String
  | typeScript, .member => "/** "
  | typeScript, .function => "/**\n * "
  | cSharp, .member => "/// <summary>\n    /// "
  | cSharp, .function => "/// <summary>\n        /// "

/-- What stands after a description in its comment. -/
def closing : Language → Site → String
  | typeScript, .member => " */"
  | typeScript, .function => "\n */"
  | cSharp, .member => "\n    /// </summary>"
  | cSharp, .function => "\n        /// </summary>"

/-- A description in its comment. -/
def comment (language : Language) (site : Site) (text : String) : String :=
  language.opening site ++ text ++ language.closing site

end Language

namespace CSharp

def isBreak (c : Char) : Bool := quotation.breaks.contains c

/-- The code points of characters that may stand before a comment. -/
def whiteSpaceRanges : List (Nat × Nat) :=
  [(0x09, 0x09), (0x0B, 0x0C), (0x20, 0x20), (0xA0, 0xA0), (0x1680, 0x1680), (0x2000, 0x200A),
   (0x202F, 0x202F), (0x205F, 0x205F), (0x3000, 0x3000)]

/-- Whether a line is a comment. -/
def isCommentLine (line : List Char) : Bool :=
  (dropStart? ['/', '/', '/'] (line.dropWhile fun c => inRanges whiteSpaceRanges c.toNat)).isSome

end CSharp

/-- Whether a description stays inside its comment, between what stands before the comment and after
it. In TypeScript the comment ends where the client closes it, and in C# every line that has a
character of the description is a comment. -/
def Enclosed (language : Language) (site : Site) (text before after : List Char) : Prop :=
  match language with
  | .typeScript =>
    afterComment? ((language.opening site).toList ++ text ++ (language.closing site).toList ++
      after) = some after
  | .cSharp =>
    ∀ start c rest, text = start ++ c :: rest → CSharp.isBreak c = false →
      CSharp.isCommentLine
        (lastLine CSharp.isBreak (before ++ (language.opening site).toList ++ start) ++
          firstLine CSharp.isBreak (c :: rest ++ ((language.closing site).toList ++ after)))

/-- Whether a description stays inside its comment wherever a source has the comment, and the source
has it. -/
def StaysInside (language : Language) (site : Site) (text source : String) : Prop :=
  (language.comment site text).toList <:+: source.toList ∧
    ∀ before after, source.toList = before ++ (language.comment site text).toList ++ after →
      Enclosed language site text.toList before after

/-- Whether nothing in a description ends a comment of a language: it has no end of a block comment,
or all lines after its first one are empty or comments. -/
def Harmless : Language → List Char → Prop
  | .typeScript, text => ¬ blockEnd <:+: text
  | .cSharp, text =>
    ∀ line ∈ (text.splitOnP CSharp.isBreak).tail, line ≠ [] → CSharp.isCommentLine line

section Enclosed

variable {site : Site} {text before after left right : List Char}

/-- Separators keep the end of a comment from standing across the ends of a text. -/
theorem blockEnd_infix_framed_iff {first last : Char} (hfirst : first ∉ blockEnd)
    (hlast : last ∉ blockEnd) (hleft : ¬ blockEnd <:+: left) (hright : ¬ blockEnd <:+: right) :
    blockEnd <:+: left ++ first :: (text ++ last :: right) ↔ blockEnd <:+: text := by
  rw [infix_append_separator_iff hfirst, infix_append_separator_iff hlast]
  simp [hleft, hright]

theorem enclosed_typeScript_iff :
    Enclosed .typeScript site text before after ↔ Harmless .typeScript text := by
  have hclosed : ∀ {first last : Char} {left right : List Char}, first ∉ blockEnd →
      last ∉ blockEnd → ¬ blockEnd <:+: left → ¬ blockEnd <:+: right ++ ['*'] →
      (afterEnd? (left ++ first :: (text ++ last :: right) ++ '*' :: '/' :: after) = some after ↔
        ¬ blockEnd <:+: text) := by
    intro first last left right hfirst hlast hleft hright
    have hbody : left ++ first :: (text ++ last :: right) ++ ['*'] =
        left ++ first :: (text ++ last :: (right ++ ['*'])) := by simp
    rw [afterEnd?_append_iff, hbody, blockEnd_infix_framed_iff hfirst hlast hleft hright]
  cases site with
  | member =>
    have hbody : afterComment? ((Language.typeScript.opening .member).toList ++ text ++
        (Language.typeScript.closing .member).toList ++ after) =
        afterEnd? (['*'] ++ ' ' :: (text ++ ' ' :: []) ++ '*' :: '/' :: after) := by
      simp [Language.opening, Language.closing, afterComment?, dropStart?]
    rw [Enclosed, hbody]
    exact hclosed (by decide) (by decide) (by decide) (by decide)
  | function =>
    have hbody : afterComment? ((Language.typeScript.opening .function).toList ++ text ++
        (Language.typeScript.closing .function).toList ++ after) =
        afterEnd? (['*', '\n', ' ', '*'] ++ ' ' :: (text ++ '\n' :: [' ']) ++
          '*' :: '/' :: after) := by
      simp [Language.opening, Language.closing, afterComment?, dropStart?]
    rw [Enclosed, hbody]
    exact hclosed (by decide) (by decide) (by decide) (by decide)

/-- The line that a description starts in is a comment, and the one after the description is another
line. -/
theorem exists_indent (site : Site) : ∃ start indent rest : List Char,
    (Language.cSharp.opening site).toList = start ++ '\n' :: indent ∧
    indent.any CSharp.isBreak = false ∧
    (∀ first, CSharp.isCommentLine (indent ++ first)) ∧
    (Language.cSharp.closing site).toList = '\n' :: rest := by
  cases site with
  | member =>
    exact ⟨"/// <summary>".toList, "    /// ".toList, "    /// </summary>".toList, rfl, rfl,
      fun first => rfl, rfl⟩
  | function =>
    exact ⟨"/// <summary>".toList, "        /// ".toList, "        /// </summary>".toList, rfl,
      rfl, fun first => rfl, rfl⟩

theorem enclosed_cSharp_iff :
    Enclosed .cSharp site text before after ↔ Harmless .cSharp text := by
  obtain ⟨start, indent, rest, hopening, hindent, hcomment, hclosing⟩ := exists_indent site
  obtain ⟨first, others, hsplit⟩ := exists_cons_of_splitOnP CSharp.isBreak text
  have hafter : firstLine CSharp.isBreak ((Language.cSharp.closing site).toList ++ after) = [] := by
    rw [hclosing]
    rfl
  have hbefore : lastLine CSharp.isBreak (before ++ (Language.cSharp.opening site).toList) =
      indent := by
    rw [hopening, ← List.append_assoc]
    exact lastLine_append_cons rfl hindent
  have hlines := forall_line_iff (P := fun line => CSharp.isCommentLine line) hafter hsplit
    (before ++ (Language.cSharp.opening site).toList)
  rw [hbefore] at hlines
  rw [Enclosed, hlines, Harmless, hsplit]
  simp [hcomment]

theorem enclosed_iff (language : Language) :
    Enclosed language site text before after ↔ Harmless language text := by
  cases language with
  | typeScript => exact enclosed_typeScript_iff
  | cSharp => exact enclosed_cSharp_iff

end Enclosed

/-! ## Comments of a client -/

/-- A client has a description: that of a member of a declared record, unless it is empty, or that
of a function. -/
inductive Describes (d : Declarations) (versions : List Version) : Site → String → Prop
  | member {key name : String} {members : List Member} {m : Member} {text : String}
    (he : (key, .record name members) ∈ d.entries) (hm : m ∈ members)
    (ht : m.description = some text) (hne : text ≠ "") : Describes d versions .member text
  | function {version : Version} {resource : Resource} {r : Route} {text : String}
    (hv : version ∈ versions) (hresource : resource ∈ version.resources)
    (hr : r ∈ resource.routes) (ht : r.description = some text) :
    Describes d versions .function text

/-- The lines of the comment of a description. -/
def commentLines : Language → Site → String → List String
  | .typeScript, .member, text => ["    /** " ++ text ++ " */"]
  | .typeScript, .function, text => ["/**", " * " ++ text, " */"]
  | .cSharp, .member, text => CSharp.summaryLines "    " text
  | .cSharp, .function, text => CSharp.summaryLines "        " text

section Client

variable {d : Declarations} {versions : List Version} {site : Site} {text : String}
  {lines more : List String}

theorem infix_flatMap {α β : Type} {a : α} {as : List α} (h : a ∈ as) (f : α → List β) :
    f a <:+: as.flatMap f := by
  rw [List.flatMap_def]
  exact List.infix_of_mem_flatten (List.mem_map_of_mem h)

theorem toList_ofLines (lines : List String) :
    (ofLines lines).toList = lines.flatMap fun line => line.toList ++ ['\n'] := by
  rw [ofLines, String.toList_join, List.flatMap_map]
  simp

theorem ofLines_infix (h : lines <:+: more) :
    (ofLines lines).toList <:+: (ofLines more).toList := by
  obtain ⟨before, after, rfl⟩ := h
  simp only [toList_ofLines, List.flatMap_append]
  exact List.infix_append _ _ _

/-- The lines of a comment are the comment with an indentation before it. -/
theorem comment_infix_commentLines (language : Language) (site : Site) (text : String) :
    (language.comment site text).toList <:+:
      (ofLines (commentLines language site text)).toList := by
  obtain ⟨indent, hlines⟩ : ∃ indent : List Char,
      (ofLines (commentLines language site text)).toList =
        indent ++ (language.comment site text).toList ++ ['\n'] := by
    simp only [toList_ofLines, Language.comment, String.toList_append]
    cases language with
    | typeScript =>
      cases site with
      | member => exact ⟨"    ".toList, by simp [commentLines, Language.opening, Language.closing]⟩
      | function => exact ⟨[], by simp [commentLines, Language.opening, Language.closing]⟩
    | cSharp =>
      cases site with
      | member =>
        exact ⟨"    ".toList, by
          simp [commentLines, CSharp.summaryLines, Language.opening, Language.closing]⟩
      | function =>
        exact ⟨"        ".toList, by
          simp [commentLines, CSharp.summaryLines, Language.opening, Language.closing]⟩
  rw [hlines]
  exact List.infix_append _ _ _

theorem commentLines_infix_memberLines {m : Member} (ht : m.description = some text)
    (hne : text ≠ "") :
    commentLines .typeScript .member text <:+: TypeScript.memberLines m ∧
      commentLines .cSharp .member text <:+: CSharp.memberLines m := by
  unfold TypeScript.memberLines CSharp.memberLines
  rw [ht]
  constructor
  -- the languages differ in the lines of the comment only
  all_goals
    split
    · rename_i hempty
      exact absurd (Option.some.inj hempty) hne
    · rename_i hsome
      cases hsome
      exact (List.prefix_append _ _).isInfix
    · rename_i hnone
      cases hnone

theorem commentLines_infix_functionLines {r : Route} (ht : r.description = some text) :
    commentLines .typeScript .function text <:+: TypeScript.functionLines r ∧
      commentLines .cSharp .function text <:+: CSharp.functionLines r := by
  unfold TypeScript.functionLines CSharp.functionLines
  rw [ht]
  simp only [List.append_assoc]
  exact ⟨⟨[""], _, rfl⟩, (List.prefix_append _ _).isInfix⟩

theorem functionLines_infix_functionsLines {routes : List Route} {r : Route} (hr : r ∈ routes) :
    CSharp.functionLines r <:+: CSharp.functionsLines routes := by
  induction routes with
  | nil => cases hr
  | cons s routes ih =>
    have hhere : CSharp.functionLines s <:+: CSharp.functionsLines (s :: routes) := by
      cases routes with
      | nil => exact List.infix_rfl
      | cons next routes =>
        rw [CSharp.functionsLines, List.append_assoc]
        · exact (List.prefix_append _ _).isInfix
        · exact List.cons_ne_nil _ _
    rcases List.mem_cons.1 hr with rfl | hr
    · exact hhere
    · rw [CSharp.functionsLines]
      · exact (ih hr).trans (List.suffix_append _ _).isInfix
      · exact List.ne_nil_of_mem hr

theorem memberLines_infix_clientLines {key name : String} {members : List Member} {m : Member}
    (he : (key, Ty.record name members) ∈ d.entries) (hm : m ∈ members) (versions : List Version) :
    TypeScript.memberLines m <:+: TypeScript.clientLines d versions ∧
      CSharp.memberLines m <:+: CSharp.clientLines d versions := by
  constructor
  · have hmember : TypeScript.memberLines m <:+:
        TypeScript.declarationLines key (.record name members) :=
      (infix_flatMap hm TypeScript.memberLines).trans (List.infix_append _ _ _)
    have hdeclaration := infix_flatMap he fun e => TypeScript.declarationLines e.1 e.2
    exact hmember.trans (hdeclaration.trans (List.infix_append _ _ _))
  · have hmember : CSharp.memberLines m <:+: CSharp.declarationLines key (.record name members) :=
      (infix_flatMap hm CSharp.memberLines).trans (List.infix_append _ _ _)
    have hdeclaration := infix_flatMap he fun e => CSharp.declarationLines e.1 e.2
    rw [CSharp.clientLines, List.append_assoc]
    exact hmember.trans (hdeclaration.trans (List.infix_append _ _ _))

theorem functionLines_infix_clientLines {version : Version} {resource : Resource} {r : Route}
    (hv : version ∈ versions) (hresource : resource ∈ version.resources)
    (hr : r ∈ resource.routes) (d : Declarations) :
    TypeScript.functionLines r <:+: TypeScript.clientLines d versions ∧
      CSharp.functionLines r <:+: CSharp.clientLines d versions := by
  constructor
  · have hfunction := infix_flatMap hr TypeScript.functionLines
    have hinner := infix_flatMap hresource fun resource =>
      resource.routes.flatMap TypeScript.functionLines
    have hversion := infix_flatMap hv fun version =>
      version.resources.flatMap fun resource => resource.routes.flatMap TypeScript.functionLines
    exact (hfunction.trans (hinner.trans hversion)).trans (List.suffix_append _ _).isInfix
  · have hfunction : CSharp.functionLines r <:+: CSharp.resourceLines version.label resource :=
      (functionLines_infix_functionsLines hr).trans (List.infix_append _ _ _)
    have hinner := infix_flatMap hresource (CSharp.resourceLines version.label)
    have hversion := infix_flatMap hv fun version =>
      version.resources.flatMap (CSharp.resourceLines version.label)
    exact (hfunction.trans (hinner.trans hversion)).trans (List.suffix_append _ _).isInfix

theorem commentLines_infix_clientLines (h : Describes d versions site text) :
    commentLines .typeScript site text <:+: TypeScript.clientLines d versions ∧
      commentLines .cSharp site text <:+: CSharp.clientLines d versions := by
  cases h with
  | member he hm ht hne =>
    obtain ⟨htypeScript, hcSharp⟩ := commentLines_infix_memberLines ht hne
    obtain ⟨htypeScript', hcSharp'⟩ := memberLines_infix_clientLines he hm versions
    exact ⟨htypeScript.trans htypeScript', hcSharp.trans hcSharp'⟩
  | function hv hresource hr ht =>
    obtain ⟨htypeScript, hcSharp⟩ := commentLines_infix_functionLines ht
    obtain ⟨htypeScript', hcSharp'⟩ := functionLines_infix_clientLines hv hresource hr d
    exact ⟨htypeScript.trans htypeScript', hcSharp.trans hcSharp'⟩

theorem comment_infix_client (h : Describes d versions site text) (language : Language) :
    (language.comment site text).toList <:+: (client language d versions).toList := by
  obtain ⟨htypeScript, hcSharp⟩ := commentLines_infix_clientLines h
  refine (comment_infix_commentLines language site text).trans ?_
  cases language with
  | typeScript => exact ofLines_infix htypeScript
  | cSharp => exact ofLines_infix hcSharp

theorem staysInside_iff (h : Describes d versions site text) (language : Language) :
    StaysInside language site text (client language d versions) ↔
      Harmless language text.toList := by
  have hcomment := comment_infix_client h language
  constructor
  · rintro ⟨-, hall⟩
    obtain ⟨before, after, hclient⟩ := hcomment
    exact (enclosed_iff language).1 (hall before after hclient.symm)
  · intro hharmless
    exact ⟨hcomment, fun before after _ => (enclosed_iff language).2 hharmless⟩

theorem harmless_cleanMarkup (s : String) : Harmless .cSharp (cleanMarkup s).toList := by
  have hbreaks : (CSharp.quotation.breaks.all fun c => isBlank c && c != ' ') = true := rfl
  have hnone : ∀ c ∈ (cleanMarkup s).toList, CSharp.isBreak c = false := by
    intro c hc
    by_contra hbreak
    have hmem : c ∈ CSharp.quotation.breaks := by simpa [CSharp.isBreak] using hbreak
    obtain ⟨hblank, hspace⟩ := Bool.and_eq_true_iff.1 (List.all_eq_true.1 hbreaks c hmem)
    exact bne_iff_ne.1 hspace (eq_space_of_mem_cleanMarkup hc hblank)
  rw [Harmless, List.splitOnP_eq_singleton hnone]
  exact nofun

theorem staysInside_of_apiDoc {entries : List Value} {routes : List Route} {replace : Bool}
    (h : ApiDoc.routesOf entries = .ok routes) (hd : Declarations.ofRoutes replace routes = .ok d)
    (hdescribes : Describes d (versionsOf routes) site text) :
    StaysInside .cSharp site text (client .cSharp d (versionsOf routes)) := by
  obtain ⟨hroutes, hmembers⟩ := ApiDoc.descriptions_cleaned h hd
  refine (staysInside_iff hdescribes .cSharp).2 ?_
  obtain ⟨raw, rfl⟩ : ∃ raw, text = cleanMarkup raw := by
    cases hdescribes with
    | member he hm ht hne => exact hmembers _ _ _ he _ hm _ ht
    | function hv hresource hr ht => exact hroutes _ (mem_of_mem_versionsOf hv hresource hr) _ ht
  exact harmless_cleanMarkup raw

/-- **Descriptions stay inside their comments exactly if they are harmless.** A client has every
description in its comment. In TypeScript the description stays inside exactly if it has no end of a
block comment, and in C# exactly if all its lines after the first one are empty or comments. The
descriptions in apiDoc data always stay inside in C#. -/
theorem descriptions_enclosed_iff (h : Describes d versions site text) (language : Language) :
    (StaysInside language site text (client language d versions) ↔
      Harmless language text.toList) ∧
    ∀ entries routes replace, ApiDoc.routesOf entries = .ok routes →
      Declarations.ofRoutes replace routes = .ok d → versions = versionsOf routes →
      StaysInside .cSharp site text (client .cSharp d versions) := by
  refine ⟨staysInside_iff h language, ?_⟩
  rintro entries routes replace hroutes hdeclared rfl
  exact staysInside_of_apiDoc hroutes hdeclared h

/-- An entry of apiDoc data whose title spans lines and whose field has a description. -/
def petEntry : Value := .mapping
  [(.text "type", .text "get"), (.text "url", .text "/pet"), (.text "name", .text "GetPet"),
    (.text "group", .text "Pet"), (.text "title", .text "Finds\na pet"),
    (.text "success", .mapping [(.text "fields", .mapping [(.text "Success 200", .list
      [.mapping [(.text "field", .text "name"), (.text "type", .text "String"),
        (.text "description", .text "Any /* name */")]])])])]

def petType : Ty :=
  .record "GetPet response" [⟨"name", some "Any /* name */", .primitive .string, false⟩]

def petRoute : Route :=
  ⟨"GetPet", some "Finds a pet", .get, "/pet", "Pet", "", [], none, some petType⟩

/-- Title and description stay inside their comments in C#, but the description ends its own in
TypeScript. -/
theorem pet_descriptions : ∃ d,
    ApiDoc.routesOf [petEntry] = .ok [petRoute] ∧ Declarations.ofRoutes false [petRoute] = .ok d ∧
    Describes d (versionsOf [petRoute]) .function "Finds a pet" ∧
    Describes d (versionsOf [petRoute]) .member "Any /* name */" ∧
    StaysInside .cSharp .function "Finds a pet" (client .cSharp d (versionsOf [petRoute])) ∧
    StaysInside .cSharp .member "Any /* name */" (client .cSharp d (versionsOf [petRoute])) ∧
    ¬ StaysInside .typeScript .member "Any /* name */"
      (client .typeScript d (versionsOf [petRoute])) := by
  have hroutes : ApiDoc.routesOf [petEntry] = .ok [petRoute] := rfl
  have hdeclared : Declarations.ofRoutes false [petRoute] =
      .ok ⟨[("GetPet response", petType)]⟩ := rfl
  have hfunction : Describes ⟨[("GetPet response", petType)]⟩ (versionsOf [petRoute]) .function
      "Finds a pet" :=
    .function List.mem_cons_self List.mem_cons_self List.mem_cons_self rfl
  have hmember : Describes ⟨[("GetPet response", petType)]⟩ (versionsOf [petRoute]) .member
      "Any /* name */" :=
    .member List.mem_cons_self List.mem_cons_self rfl (by decide)
  have htitle := (descriptions_enclosed_iff hfunction .cSharp).2 _ _ _ hroutes hdeclared rfl
  obtain ⟨hexact, hcleaned⟩ := descriptions_enclosed_iff hmember .typeScript
  refine ⟨_, hroutes, hdeclared, hfunction, hmember, htitle,
    hcleaned _ _ _ hroutes hdeclared rfl, ?_⟩
  rw [hexact]
  exact fun h => h ⟨"Any /* name ".toList, [], rfl⟩

/-- A document with an operation whose summary has a pattern for files and a second line. -/
def filesDocument : Value := .mapping
  [(.text "openapi", .text "3.0.0"),
    (.text "paths", .mapping [(.text "/files", .mapping [(.text "get", .mapping
      [(.text "operationId", .text "getFiles"),
        (.text "summary", .text "Lists src/*/main\nand more")])])])]

def filesRoute : Route :=
  ⟨"getFiles", some "Lists src/*/main\nand more", .get, "/files", "/files", "", [], none, none⟩

/-- The pattern ends the comment in TypeScript, and the second line is no comment in C#. -/
theorem description_leaves_comments : ∃ model,
    (Model.ofDocument filesDocument .default).result = .ok model ∧
    Describes model.declarations model.versions .function "Lists src/*/main\nand more" ∧
    ∀ language, ¬ StaysInside language .function "Lists src/*/main\nand more"
      (client language model.declarations model.versions) := by
  have hmodel : (Model.ofDocument filesDocument .default).result =
      .ok ⟨[filesRoute], ⟨[]⟩, versionsOf [filesRoute]⟩ := rfl
  have hdescribes : Describes ⟨[]⟩ (versionsOf [filesRoute]) .function
      "Lists src/*/main\nand more" :=
    .function List.mem_cons_self List.mem_cons_self List.mem_cons_self rfl
  refine ⟨_, hmodel, hdescribes, fun language => ?_⟩
  rw [staysInside_iff hdescribes language]
  cases language with
  | typeScript => exact fun h => h ⟨"Lists src/".toList, "main\nand more".toList, rfl⟩
  | cSharp =>
    intro h
    have hlines : "Lists src/*/main\nand more".toList.splitOnP CSharp.isBreak =
        ["Lists src/*/main".toList, "and more".toList] := rfl
    rw [Harmless, hlines] at h
    exact absurd (h _ List.mem_cons_self (by simp)) (by decide)

end Client

end ApiBindings.Source
