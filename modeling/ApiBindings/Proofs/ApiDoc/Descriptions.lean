import ApiBindings.Proofs.ApiDoc.Record
import ApiBindings.Proofs.ApiDoc.TypeNames
import ApiBindings.Proofs.Declarations.Walk
import ApiBindings.Proofs.Text.Markup

/-!
# Descriptions

All descriptions in apiDoc data are cleaned when they are read: those of routes, and those of the
members of every type that is declared for them (`descriptions_cleaned`).
-/

namespace ApiBindings.ApiDoc

section Descriptions

variable {place : String} {placed : List Placement} {declaration : Declaration} {ty child : Ty}
  {m : Member} {members : List Member} {text name : String} {entries : List Value}
  {routes : List Route}

theorem cleaned_of_descriptionOf (h : descriptionOf declaration = .ok (some text)) :
    ∃ raw, text = Text.cleanMarkup raw := by
  obtain ⟨raw, -, h⟩ := bind_eq_ok.1 h
  have hcleaned := Except.ok.inj h
  split at hcleaned
  · cases hcleaned
  · exact ⟨raw, (Option.some.inj hcleaned).symm⟩

theorem Built.of_mem_children (h : Built place placed ty) (hc : child ∈ ty.children) :
    ∃ place placed, Built place placed child := by
  cases h with
  | primitive p => cases hc
  | map key value =>
    rcases List.mem_pair.1 hc with rfl | rfl
    · exact ⟨place, placed, .primitive key⟩
    · exact ⟨place, placed, .primitive value⟩
  | union cases => cases hc
  | record h =>
    obtain ⟨m, hm, rfl⟩ := List.mem_map.1 hc
    obtain ⟨-, htype, -⟩ := (membersOf_treeOf h).2 m hm
    exact ⟨_, _, (typeOf_branchAt htype).2.1⟩
  | array h =>
    obtain rfl := List.mem_singleton.1 hc
    exact ⟨place, placed, h⟩

theorem Built.cleaned (h : Built place placed (.record name members)) (hm : m ∈ members)
    (ht : m.description = some text) : ∃ raw, text = Text.cleanMarkup raw := by
  obtain ⟨hdescription, -, -⟩ := (membersOf_treeOf (h.membersOf_inner rfl)).2 m hm
  rw [ht] at hdescription
  exact cleaned_of_descriptionOf hdescription

theorem built_of_recordOf {fields : List Value} (h : recordOf name fields = .ok (some ty)) :
    ∃ place placed, Built place placed ty := by
  obtain ⟨placed, members, -, rfl, hmembers⟩ := recordOf_ok h
  exact ⟨name, placed, .record hmembers⟩

theorem exists_entry_of_mem_routes {r : Route} (h : routesOf entries = .ok routes)
    (hr : r ∈ routes) : ∃ entry versioned, routeOfEntry entry versioned = .ok r := by
  obtain ⟨versions, -, h⟩ := bind_eq_ok.1 h
  obtain ⟨entry, -, hentry⟩ := exists_of_mem_right (forall₂_of_mapM h) hr
  exact ⟨entry, _, hentry⟩

theorem built_of_mem_types (h : routesOf entries = .ok routes) :
    ∀ ty ∈ routes.flatMap Route.types, ∃ place placed, Built place placed ty := by
  intro ty hty
  obtain ⟨r, hr, hty⟩ := List.mem_flatMap.1 hty
  obtain ⟨entry, versioned, hroute⟩ := exists_entry_of_mem_routes h hr
  obtain ⟨-, hpayload, hresponse⟩ := routeOfEntry_ok hroute
  rcases List.mem_append.1 hty with hty | hty
  · obtain ⟨fields, hrecord⟩ := hpayload ty (Option.mem_toList.1 hty)
    exact built_of_recordOf hrecord
  · obtain ⟨fields, hrecord⟩ := hresponse ty (Option.mem_toList.1 hty)
    exact built_of_recordOf hrecord

/-- The description of a route is a cleaned text, and so is that of every member of a declared
record. -/
theorem descriptions_cleaned {replace : Bool} {d : Declarations}
    (h : routesOf entries = .ok routes) (hd : Declarations.ofRoutes replace routes = .ok d) :
    (∀ r ∈ routes, ∀ text, r.description = some text → ∃ raw, text = Text.cleanMarkup raw) ∧
    ∀ key name members, (key, Ty.record name members) ∈ d.entries →
      ∀ m ∈ members, ∀ text, m.description = some text → ∃ raw, text = Text.cleanMarkup raw := by
  constructor
  · intro r hr
    obtain ⟨entry, versioned, hroute⟩ := exists_entry_of_mem_routes h hr
    obtain ⟨es, fields, -, hmade⟩ := madeOf_of_routeOfEntry hroute
    exact hmade.description
  · intro key name members hentry m hm text ht
    obtain ⟨place, placed, hbuilt⟩ := Declarations.declared_of_hereditary
      (fun ty ⟨place, placed, hty⟩ child hc => hty.of_mem_children hc) (built_of_mem_types h) hd _
      hentry
    exact hbuilt.cleaned hm ht

end Descriptions

end ApiBindings.ApiDoc
