import ApiBindings.Proofs.Source.Spelling
import Mathlib.Data.List.DropRight

/-!
# Parameters in clients

The function of a route lists its parameters, and its URL has placeholders for some of them. A
reader of the list finds the identifiers of all parameters, since the commas in a type stand between
brackets (`identifiersOf_parameterList`), and a reader of the URL finds the segments of the route,
since neither a literal nor an identifier has a slash in it (`splitText_urlTemplate`).
-/

namespace ApiBindings.Source

open Text

/-! ## The list -/

/-- The parts of a list, each up to a comma outside of all brackets. A blank follows the comma. -/
def outerParts : List Char → List (List Char)
  | [] => []
  | c :: cs =>
    outerPart 0 (c :: cs) :: outerParts ((c :: cs).drop ((outerPart 0 (c :: cs)).length + 2))
termination_by cs => cs.length
decreasing_by simp

/-- The identifier in a parameter, which TypeScript writes before the type and C# behind it. -/
def identifierOf : Language → List Char → String
  | .typeScript, parameter => String.ofList (parameter.takeWhile (· != ':'))
  | .cSharp, parameter => String.ofList (parameter.rtakeWhile (· != ' '))

/-- The identifiers in a list of parameters. -/
def identifiersOf (language : Language) (list : String) : List String :=
  (outerParts list.toList).map (identifierOf language)

section List

variable {x rest : List Char} {texts : List (List Char)}

theorem outerParts_of_ne_nil (hx : x ≠ []) :
    outerParts x = outerPart 0 x :: outerParts (x.drop ((outerPart 0 x).length + 2)) := by
  cases x with
  | nil => exact absurd rfl hx
  | cons c cs => rw [outerParts]

theorem outerParts_append_separator (hx : Matched 0 x) (rest : List Char) :
    outerParts (x ++ (", ".toList ++ rest)) = x :: outerParts rest := by
  have hne : x ++ (", ".toList ++ rest) ≠ [] := List.append_ne_nil_of_right_ne_nil x nofun
  have hfirst : outerPart 0 (x ++ (", ".toList ++ rest)) = x := by
    rw [hx 0 (Nat.le_refl 0)]
    simp [outerPart]
  rw [outerParts_of_ne_nil hne, hfirst, ← List.append_assoc]
  exact congrArg (fun cs => x :: outerParts cs) (List.drop_left' (List.length_append ..))

theorem outerParts_singleton (hx : Matched 0 x) (hne : x ≠ []) : outerParts x = [x] := by
  have hfirst : outerPart 0 x = x := by
    have h := hx 0 (Nat.le_refl 0) []
    rwa [outerPart, List.append_nil] at h
  rw [outerParts_of_ne_nil hne, hfirst, List.drop_of_length_le (Nat.le_add_right ..), outerParts]

theorem outerParts_intercalate (h : ∀ x ∈ texts, Matched 0 x ∧ x ≠ []) :
    outerParts (", ".toList.intercalate texts) = texts := by
  induction texts with
  | nil => exact outerParts.eq_1
  | cons x texts ih =>
    obtain ⟨⟨hx, hne⟩, htexts⟩ := List.forall_mem_cons.1 h
    cases texts with
    | nil =>
      rw [List.intercalate_singleton]
      exact outerParts_singleton hx hne
    | cons y texts =>
      rw [List.intercalate_cons_cons, List.append_assoc, outerParts_append_separator hx, ih htexts]

variable {language : Language} {name : String} {ty : Ty}

theorem matched_parameter (language : Language) (name : String) (ty : Ty) :
    Matched 0 (language.parameter name ty).toList := by
  have hname : Matched 0 (language.parameterName name).toList :=
    matched_of_words fun c => isWordChar_of_mem_camelCase
  have hty : Matched 0 (language.typeRef ty).toList := by
    rw [Language.typeRef_eq_useRef]
    exact matched_useRef language ty.use
  cases language with
  | typeScript =>
    have hcolon : Matched 0 ": ".toList := matched_of_plain (by simp)
    rw [Language.parameter, String.toList_append, String.toList_append]
    exact (hname.append hcolon).append hty
  | cSharp =>
    have hblank : Matched 0 " ".toList := matched_of_plain (by simp)
    rw [Language.parameter, String.toList_append, String.toList_append]
    exact (hty.append hblank).append hname

theorem parameter_ne_nil (language : Language) (name : String) (ty : Ty) :
    (language.parameter name ty).toList ≠ [] := by
  cases language <;> simp [Language.parameter]

theorem bne_of_mem_parameterName {c d : Char} (hd : isWordChar d = false)
    (hc : c ∈ (language.parameterName name).toList) : c != d := by
  rw [bne_iff_ne]
  rintro rfl
  cases (isWordChar_of_mem_camelCase hc).symm.trans hd

theorem identifierOf_parameter (language : Language) (name : String) (ty : Ty) :
    identifierOf language (language.parameter name ty).toList = language.parameterName name := by
  cases language with
  | typeScript =>
    have hname : ∀ c ∈ (Language.typeScript.parameterName name).toList, c != ':' :=
      fun c => bne_of_mem_parameterName rfl
    rw [identifierOf, Language.parameter, String.toList_append, String.toList_append,
      List.append_assoc, List.takeWhile_append_of_pos hname]
    simp
  | cSharp =>
    have hname : ∀ c ∈ (Language.cSharp.parameterName name).toList.reverse, c != ' ' :=
      fun c hc => bne_of_mem_parameterName rfl (List.mem_reverse.1 hc)
    rw [identifierOf, Language.parameter, String.toList_append, String.toList_append,
      List.rtakeWhile, List.reverse_append, List.takeWhile_append_of_pos hname]
    simp

/-- A reader of the list finds the identifiers of all parameters. -/
theorem identifiersOf_parameterList (language : Language) (r : Route) :
    identifiersOf language (language.parameterList r) =
      r.parameters.map fun p => language.parameterName p.1 := by
  rw [identifiersOf, Language.parameterList, String.toList_intercalate, outerParts_intercalate,
    List.map_map, List.map_map]
  · exact List.map_congr_left fun p _ => identifierOf_parameter language p.1 p.2
  · simp only [List.forall_mem_map]
    exact fun p _ => ⟨matched_parameter language p.1 p.2, parameter_ne_nil language p.1 p.2⟩

end List

/-! ## The URL -/

/-- What a placeholder starts with. -/
def opening : Language → String
  | .typeScript => "$\x7b"
  | .cSharp => "\x7b"

/-- How a segment stands in the URL of a client: a literal as it is, and a parameter as one of some
identifiers between braces. -/
inductive StandsAs (language : Language) (identifiers : List String) : Segment → String → Prop
  | literal (value : String) : StandsAs language identifiers (.literal value) value
  | parameter (name : String) {identifier : String} (h : identifier ∈ identifiers) :
    StandsAs language identifiers (.parameter name) (opening language ++ identifier ++ "\x7d")

theorem placeholder_eq (language : Language) (identifier : String) :
    language.placeholder identifier = opening language ++ identifier ++ "\x7d" := by
  cases language <;> rfl

theorem slash_not_mem_segment (language : Language) {url : String} {s : Segment}
    (h : s ∈ Segment.ofUrl url) : '/' ∉ (language.segment s).toList := by
  obtain ⟨part, hpart, rfl⟩ := List.mem_map.1 h
  unfold Segment.ofPart
  split
  · rename_i name
    have hname : '/' ∉ (language.parameterName (String.ofList name)).toList := by
      intro hmem
      cases isWordChar_of_mem_camelCase hmem
    cases language <;> simp [Language.segment, Language.placeholder, hname]
  · rw [Language.segment, String.toList_ofList]
    exact not_mem_of_mem_split hpart

/-- A reader of the URL finds the segments of the route. -/
theorem splitText_urlTemplate (language : Language) (r : Route) :
    splitText '/' (language.urlTemplate r) = r.segments.map language.segment := by
  refine splitText_intercalate rfl ?_ ?_
  · simp only [List.forall_mem_map]
    exact fun s => slash_not_mem_segment language
  · rw [ne_eq, List.map_eq_nil_iff, Route.segments, Segment.ofUrl, List.map_eq_nil_iff]
    exact split_ne_nil '/' r.url.toList

/-- The segments of a route stand in its URL, and the placeholders are identifiers of the list of
parameters if the route has parameters of these names. -/
theorem standsAs_urlTemplate (language : Language) {r : Route}
    (h : ∀ name, .parameter name ∈ r.segments → ∃ p ∈ r.parameters, p.1 = name) :
    List.Forall₂ (StandsAs language (identifiersOf language (language.parameterList r))) r.segments
      (splitText '/' (language.urlTemplate r)) := by
  rw [splitText_urlTemplate, List.forall₂_map_right_iff, List.forall₂_same]
  intro s hs
  cases s with
  | literal value => exact .literal value
  | parameter name =>
    obtain ⟨p, hp, rfl⟩ := h name hs
    rw [Language.segment, placeholder_eq]
    refine .parameter p.1 ?_
    rw [identifiersOf_parameterList]
    exact List.mem_map.2 ⟨p, hp, rfl⟩

end ApiBindings.Source
