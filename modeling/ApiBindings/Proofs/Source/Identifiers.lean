import ApiBindings.Model
import ApiBindings.Proofs.ApiDoc.TypeNames
import ApiBindings.Proofs.Declarations.Walk
import ApiBindings.Proofs.Text.Words

/-!
# Identifiers of declared types

A name is declared once, but the identifier of a type keeps only the plain words of its name. So the
identifiers of a client are apart exactly as far as the plain words of the declared names are
(`identifiers_apart_iff`). In apiDoc data this concerns the versions of a route: the types of two
versions share an identifier exactly if the versions have the same plain words
(`typeRef_of_versions_iff`), that is, if they have no letters, the same digits without the dots
between them (`plainWords_of_numbered_versions_iff`).
-/

namespace ApiBindings.Source

open Text

/-- The identifiers under which a client declares its types, in order. -/
def identifiers (language : Language) (d : Declarations) : List String :=
  d.names.map language.typeName

section Apart

variable {replace : Bool} {routes : List Route} {d : Declarations}

/-- **Identifiers are as good as the words of the names.** For any routes whose types can be
declared, the identifiers of the declared types are different and none of them is empty exactly if
every declared name has a character that can be part of a word and different declared names have
different plain words. -/
theorem identifiers_apart_iff (language : Language)
    (h : Declarations.ofRoutes replace routes = .ok d) :
    ((identifiers language d).Nodup ∧ "" ∉ identifiers language d) ↔
      (∀ name ∈ d.names, ∃ c ∈ name.toList, isWordChar c) ∧
        ∀ a ∈ d.names, ∀ b ∈ d.names, plainWords a = plainWords b → a = b := by
  have hnames := Declarations.nodup_names_of_ofRoutes h
  have hdifferent : (identifiers language d).Nodup ↔
      ∀ a ∈ d.names, ∀ b ∈ d.names, plainWords a = plainWords b → a = b := by
    rw [identifiers, List.nodup_map_iff_inj_on hnames]
    simp only [Language.typeName, pascalCase_eq_iff]
  have hempty : "" ∉ identifiers language d ↔
      ∀ name ∈ d.names, ∃ c ∈ name.toList, isWordChar c := by
    simp only [identifiers, List.mem_map, Language.typeName, pascalCase_eq_empty_iff, not_exists,
      not_and, not_forall, Bool.not_eq_false, exists_prop]
  rw [hdifferent, hempty, and_comm]

/-- An entry of apiDoc data for a route that answers with one field. -/
def userEntry (version field : String) : Value := .mapping
  [(.text "type", .text "get"), (.text "url", .text "/users"), (.text "name", .text "GetUser"),
    (.text "group", .text "User"), (.text "version", .text version),
    (.text "success", .mapping [(.text "fields", .mapping [(.text "Success 200",
      .list [.mapping [(.text "field", .text field), (.text "type", .text "String")]])])])]

def userType (version field : String) : Ty :=
  .record ("GetUser " ++ version ++ " response") [⟨field, none, .primitive .string, false⟩]

def userRoute (version field : String) : Route :=
  ⟨"GetUser", none, .get, "/users", "User", version, [], none, some (userType version field)⟩

/-- The types of the answers in two versions. -/
def userTypes (v w : String) : Declarations :=
  ⟨[("GetUser " ++ v ++ " response", userType v "name"),
    ("GetUser " ++ w ++ " response", userType w "mail")]⟩

/-- The versions 1.0.0 and 2.0.0 of a route give the types of their answers two identifiers. -/
theorem versions_have_identifiers :
    Declarations.ofRoutes false [userRoute "1.0.0" "name", userRoute "2.0.0" "mail"] =
      .ok (userTypes "1.0.0" "2.0.0") ∧
    (identifiers .cSharp (userTypes "1.0.0" "2.0.0")).Nodup ∧
    "" ∉ identifiers .cSharp (userTypes "1.0.0" "2.0.0") := by
  have hdeclared : Declarations.ofRoutes false
      [userRoute "1.0.0" "name", userRoute "2.0.0" "mail"] = .ok (userTypes "1.0.0" "2.0.0") := rfl
  have hnames : (userTypes "1.0.0" "2.0.0").names =
      ["GetUser 1.0.0 response", "GetUser 2.0.0 response"] := rfl
  have hfirst : plainWords "GetUser 1.0.0 response" =
      ["get".toList, "user".toList, "100".toList, "response".toList] := rfl
  have hsecond : plainWords "GetUser 2.0.0 response" =
      ["get".toList, "user".toList, "200".toList, "response".toList] := rfl
  refine ⟨hdeclared, (identifiers_apart_iff .cSharp hdeclared).2 ?_⟩
  rw [hnames]
  refine ⟨fun name hname => ⟨'G', ?_, rfl⟩, ?_⟩
  · rcases List.mem_pair.1 hname with rfl | rfl <;> simp
  · simp [hfirst, hsecond]

/-- The versions 0.1.10 and 0.11.0 of a route give the types of their answers one identifier, under
which a client declares both. -/
theorem versions_share_identifier : ∃ entries routes d,
    ApiDoc.routesOf entries = .ok routes ∧ Declarations.ofRoutes false routes = .ok d ∧
    d.names = ["GetUser 0.1.10 response", "GetUser 0.11.0 response"] ∧
    (∀ language, identifiers language d = ["GetUser0110Response", "GetUser0110Response"]) ∧
    (TypeScript.clientLines d (versionsOf routes)).count
      "export interface GetUser0110Response \x7b" = 2 ∧
    (CSharp.clientLines d (versionsOf routes)).count "public class GetUser0110Response" = 2 := by
  refine ⟨[userEntry "0.1.10" "name", userEntry "0.11.0" "mail"],
    [userRoute "0.1.10" "name", userRoute "0.11.0" "mail"], userTypes "0.1.10" "0.11.0",
    rfl, rfl, rfl, fun _ => rfl, ?_, ?_⟩
  · decide
  · decide

end Apart

/-! ## Versions -/

section Versions

variable {v w : String}

theorem typeRef_of_name {language : Language} {ty : Ty} {name : String} (h : ty.name? = some name) :
    language.typeRef ty = language.typeName name := by
  cases ty with
  | union name cases =>
    cases h
    rfl
  | record name members =>
    cases h
    rfl
  | _ => cases h

/-- What a name starts and ends with does not count when identifiers are compared. -/
theorem typeName_of_versions_iff (language : Language) {name suffix part : String}
    (h : suffix = " " ++ part) :
    language.typeName (name ++ " " ++ v ++ suffix) =
      language.typeName (name ++ " " ++ w ++ suffix) ↔ plainWords v = plainWords w := by
  simp only [h, ← String.append_assoc, Language.typeName, pascalCase_append_blank,
    ← pascalCase_eq_iff]
  rw [String.append_left_inj, String.append_right_inj]

/-- The payloads of two versions of a route have the same identifier exactly if the versions have
the same plain words, and so have the responses. -/
theorem typeRef_of_versions_iff (language : Language) {first second : Value} {r s : Route}
    {part : Route → Option Ty} {ty uy : Ty} (hr : ApiDoc.routeOfEntry first true = .ok r)
    (hs : ApiDoc.routeOfEntry second true = .ok s) (hname : r.name = s.name)
    (hrv : r.version ≠ "") (hsv : s.version ≠ "")
    (hpart : part = Route.payload ∨ part = Route.response)
    (ht : part r = some ty) (hu : part s = some uy) :
    language.typeRef ty = language.typeRef uy ↔ plainWords r.version = plainWords s.version := by
  have hprefix : ∀ route : Route, route.version ≠ "" →
      ApiDoc.typePrefix true route = route.name ++ " " ++ route.version := by
    intro route hv
    simp [ApiDoc.typePrefix, hv]
  obtain ⟨hrpayload, hrresponse⟩ := ApiDoc.names_of_routeOfEntry hr
  obtain ⟨hspayload, hsresponse⟩ := ApiDoc.names_of_routeOfEntry hs
  have hpayload : " payload" = " " ++ "payload" := rfl
  have hresponse : " response" = " " ++ "response" := rfl
  rcases hpart with rfl | rfl
  · rw [typeRef_of_name (hrpayload ty ht), typeRef_of_name (hspayload uy hu), hprefix r hrv,
      hprefix s hsv, hname]
    exact typeName_of_versions_iff language hpayload
  · rw [typeRef_of_name (hrresponse ty ht), typeRef_of_name (hsresponse uy hu), hprefix r hrv,
      hprefix s hsv, hname]
    exact typeName_of_versions_iff language hresponse

/-- Versions without letters have the same plain words exactly if they have the same digits in the
same order. -/
theorem plainWords_of_numbered_versions_iff (hv : ∀ c ∈ v.toList, c.isAlpha = false)
    (hw : ∀ c ∈ w.toList, c.isAlpha = false) :
    plainWords v = plainWords w ↔
      v.toList.filter isDecimalDigit = w.toList.filter isDecimalDigit := by
  rw [← pascalCase_eq_iff, ← String.toList_inj, toList_pascalCase_of_no_letters hv,
    toList_pascalCase_of_no_letters hw]

end Versions

end ApiBindings.Source
