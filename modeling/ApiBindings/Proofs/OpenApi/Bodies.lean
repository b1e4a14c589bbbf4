import ApiBindings.OpenApi.Routes
import ApiBindings.Proofs.Schema.Conversion

/-!
# Types of bodies

Reading the routes of a document converts the schemas of bodies and nothing else. Every conversion
starts with nothing on the stack, under the name of an operation followed by a word for the kind of
the body (`converted_of_mem_types`).
-/

namespace ApiBindings.OpenApi

open Schema

/-! ## Results of readings -/

namespace Reading

variable {α β : Type}

theorem andThen_assoc {γ : Type} (r : Reading α) (k : α → Reading β) (next : β → Reading γ) :
    (r.andThen k).andThen next = r.andThen fun a => (k a).andThen next := by
  obtain ⟨warnings, outcome⟩ := r
  cases outcome with
  | error f => rfl
  | ok a =>
    simp only [andThen]
    cases (k a).result <;> simp

theorem andThen_yield (r : Reading α) : r.andThen yield = r := by
  obtain ⟨warnings, outcome⟩ := r
  cases outcome <;> simp [andThen, yield]

instance : LawfulMonad Reading :=
  LawfulMonad.mk' Reading andThen_yield (fun _ _ => rfl) andThen_assoc

theorem bind_eq_mk_ok {r : Reading α} {next : α → Reading β} {warnings : List Warning} {b : β} :
    r >>= next = ⟨warnings, .ok b⟩ ↔ ∃ a before after,
      r = ⟨before, .ok a⟩ ∧ next a = ⟨after, .ok b⟩ ∧ warnings = before ++ after := by
  obtain ⟨before, outcome⟩ := r
  cases outcome with
  | error f => simp [bind_eq, andThen]
  | ok a =>
    cases hnext : next a
    simp [bind_eq, andThen, hnext, eq_comm, and_comm]

theorem lift_bind_eq_mk_ok {r : Except Fault α} {next : α → Reading β} {warnings : List Warning}
    {b : β} : liftM r >>= next = ⟨warnings, .ok b⟩ ↔ ∃ a, r = .ok a ∧ next a = ⟨warnings, .ok b⟩ := by
  change ofExcept r >>= next = _ ↔ _
  cases r with
  | error f => simp [bind_eq, andThen, ofExcept]
  | ok a =>
    cases hnext : next a
    simp [bind_eq, andThen, ofExcept, hnext]

/-- Readings of a list that go through give the warnings of all of them. -/
theorem warnings_mapM {f : α → Reading β} {as : List α} {bs : List β}
    (h : (as.mapM f).result = .ok bs) :
    (as.mapM f).warnings = as.flatMap fun a => (f a).warnings := by
  generalize hwarnings : (as.mapM f).warnings = warnings
  have hread : as.mapM f = ⟨warnings, .ok bs⟩ := by
    rw [← hwarnings, ← h]
  clear h hwarnings
  induction as generalizing bs warnings with
  | nil =>
    cases hread
    rfl
  | cons a as ih =>
    rw [List.mapM_cons] at hread
    obtain ⟨b, first, rest, hfirst, hrest, rfl⟩ := bind_eq_mk_ok.1 hread
    obtain ⟨bs', later, last, hlater, hyield, rfl⟩ := bind_eq_mk_ok.1 hrest
    cases hyield
    rw [List.flatMap_cons, ← ih _ hlater, hfirst, List.append_nil]

theorem result_mapM (f : α → Reading β) (as : List α) :
    (as.mapM f).result = as.mapM fun a => (f a).result := by
  induction as with
  | nil => rfl
  | cons a as ih =>
    rw [List.mapM_cons, List.mapM_cons, result_bind]
    congr 1
    funext b
    rw [result_bind, ih]
    rfl

theorem exists_of_mem_mapM {f : α → Reading β} {as : List α} {bs : List β} {b : β}
    (h : (as.mapM f).result = .ok bs) (hb : b ∈ bs) : ∃ a ∈ as, (f a).result = .ok b := by
  rw [result_mapM] at h
  exact exists_of_mem_right (R := fun a b => (f a).result = .ok b) (forall₂_of_mapM h) hb

end Reading

/-! ## Types of routes -/

/-- A type is that of a body of an operation: it is converted with nothing on the stack, at a place
named by the operation. -/
def Converted (document : Value) (ty : Ty) : Prop :=
  ∃ (position id : Value) (kind : String), (kind = " payload" ∨ kind = " response") ∧
    convertPosition document position (id.spelling ++ kind) = .ok ty

section Bodies

variable {document body : Value} {place : String} {ty : Ty}

theorem convertPosition_of_bodyType (h : (bodyType document body place).result = .ok (some ty)) :
    ∃ position, convertPosition document position place = .ok ty := by
  unfold bodyType at h
  obtain ⟨content, -, h⟩ := Reading.bind_result_eq_ok.1 h
  obtain ⟨media, -, h⟩ := Reading.bind_result_eq_ok.1 h
  split at h
  · cases h
  obtain ⟨schema, -, h⟩ := Reading.bind_result_eq_ok.1 h
  split at h
  · cases h
  obtain ⟨found, hr, h⟩ := Reading.bind_result_eq_ok.1 h
  cases found with
  | none =>
    obtain ⟨reference, -, h⟩ := Reading.bind_result_eq_ok.1 h
    cases h
  | some r =>
    obtain ⟨converted, hc, h⟩ := Reading.bind_result_eq_ok.1 h
    cases h
    refine ⟨schema, ?_⟩
    rw [convertPosition, ← convert_eq_convertAt hr]
    exact hc

theorem convertPosition_of_bodyType? (h : (bodyType? document body place).result = .ok (some ty)) :
    ∃ position, convertPosition document position place = .ok ty := by
  unfold bodyType? at h
  split at h
  · cases h
  obtain ⟨mentioned, -, h⟩ := Reading.bind_result_eq_ok.1 h
  split at h
  · cases h
  · exact convertPosition_of_bodyType h

end Bodies

section Routes

variable {document path operation shared version : Value} {method : String} {route : Route}
  {ty : Ty}

/-- A route has the URL of a path, a method, the parameters of the path and of an operation, the
identifier of the operation and the types of its bodies. The warnings are those about the bodies. -/
structure ReadFrom (document path : Value) (method : String) (operation shared : Value)
    (warnings : List Warning) (route : Route) : Prop where
  url : ∃ text, path = .text text ∧ route.url = urlTemplate text
  urlParameters : ∃ own, operation.get "parameters" = .ok own ∧
    OpenApi.urlParameters shared own = .ok route.urlParameters
  group : path = .text route.group
  parsed : Method.parse (.text method) = .ok route.method
  name : operation.get "operationId" = .ok (.text route.name)
  bodies : ∃ requestBody selected sent given, operation.get "requestBody" = .ok requestBody ∧
    selectedResponse operation = .ok selected ∧
    bodyType? document requestBody (route.name ++ " payload") = ⟨sent, .ok route.payload⟩ ∧
    bodyType? document selected (route.name ++ " response") = ⟨given, .ok route.response⟩ ∧
    warnings = sent ++ given

theorem get_of_operationId {id : Value} (h : operationId path method operation = .ok id) :
    operation.get "operationId" = .ok id := by
  obtain ⟨found, hfound, hid⟩ := bind_eq_ok.1 h
  split at hid
  · cases hid
  · cases hid
    exact hfound

theorem readFrom_of_routeOfOperation
    (h : (routeOfOperation document path method operation shared version).result = .ok route) :
    ReadFrom document path method operation shared
      (routeOfOperation document path method operation shared version).warnings route := by
  generalize hwarnings :
    (routeOfOperation document path method operation shared version).warnings = warnings
  have hread : routeOfOperation document path method operation shared version =
      ⟨warnings, .ok route⟩ := by
    rw [← hwarnings, ← h]
  unfold routeOfOperation at hread
  obtain ⟨id, hid, hread⟩ := Reading.lift_bind_eq_mk_ok.1 hread
  obtain ⟨summary, -, hread⟩ := Reading.lift_bind_eq_mk_ok.1 hread
  obtain ⟨description, -, hread⟩ := Reading.lift_bind_eq_mk_ok.1 hread
  obtain ⟨parsedMethod, hparsed, hread⟩ := Reading.lift_bind_eq_mk_ok.1 hread
  obtain ⟨text, htext, hread⟩ := Reading.lift_bind_eq_mk_ok.1 hread
  obtain ⟨own, hown, hread⟩ := Reading.lift_bind_eq_mk_ok.1 hread
  obtain ⟨parameters, hparameters, hread⟩ := Reading.lift_bind_eq_mk_ok.1 hread
  obtain ⟨requestBody, hbody, hread⟩ := Reading.lift_bind_eq_mk_ok.1 hread
  obtain ⟨payload, sent, later, hpayload, hread, hsent⟩ := Reading.bind_eq_mk_ok.1 hread
  obtain ⟨selected, hselected, hread⟩ := Reading.lift_bind_eq_mk_ok.1 hread
  obtain ⟨response, given, last, hresponse, hread, hgiven⟩ := Reading.bind_eq_mk_ok.1 hread
  obtain ⟨hlast, hcheck⟩ : [] = last ∧ _ := Reading.mk.inj hread
  obtain rfl := Value.eq_text_of_asText htext
  obtain ⟨hmethod, hurl, rfl⟩ := RouteDraft.url_of_check hcheck
  obtain ⟨rfl, -, rfl, rfl⟩ := RouteDraft.of_check hcheck
  have hgroup := RouteDraft.group_of_check hcheck
  exact {
    url := ⟨text, rfl, hurl⟩
    urlParameters := ⟨own, hown, hparameters⟩
    group := hgroup
    parsed := hmethod ▸ hparsed
    name := get_of_operationId hid
    bodies := ⟨requestBody, selected, sent, given, hbody, hselected, hpayload, hresponse, by
      rw [hsent, hgiven, ← hlast, List.append_nil]⟩
  }

theorem converted_of_mem_operation
    (h : (routeOfOperation document path method operation shared version).result = .ok route)
    (ht : ty ∈ route.types) : Converted document ty := by
  obtain ⟨requestBody, selected, sent, given, -, -, hp, hr, -⟩ :=
    (readFrom_of_routeOfOperation h).bodies
  rcases List.mem_append.1 ht with ht | ht
  · rw [Option.mem_toList.1 ht] at hp
    obtain ⟨position, hc⟩ := convertPosition_of_bodyType? (congrArg Reading.result hp)
    exact ⟨position, .text route.name, _, .inl rfl, hc⟩
  · rw [Option.mem_toList.1 ht] at hr
    obtain ⟨position, hc⟩ := convertPosition_of_bodyType? (congrArg Reading.result hr)
    exact ⟨position, .text route.name, _, .inr rfl, hc⟩

theorem converted_of_mem_item {item : Value} {routes : List Route}
    (h : (routesOfItem document path item version).result = .ok routes) (hroute : route ∈ routes)
    (ht : ty ∈ route.types) : Converted document ty := by
  unfold routesOfItem at h
  obtain ⟨mentioned, -, h⟩ := Reading.bind_result_eq_ok.1 h
  split at h
  · obtain ⟨_, -, h⟩ := Reading.bind_result_eq_ok.1 h
    cases h
    cases hroute
  · unfold routesOfPath at h
    obtain ⟨entries, -, h⟩ := Reading.bind_result_eq_ok.1 h
    obtain ⟨⟨m, operation⟩, -, ho⟩ := Reading.exists_of_mem_mapM h hroute
    exact converted_of_mem_operation ho ht

/-- All types of the routes of a document are converted from bodies. -/
theorem converted_of_mem_types {routes : List Route}
    (h : (routesOf document version).result = .ok routes)
    (ht : ty ∈ routes.flatMap Route.types) : Converted document ty := by
  obtain ⟨route, hroute, hty⟩ := List.mem_flatMap.1 ht
  unfold routesOf at h
  obtain ⟨paths, -, h⟩ := Reading.bind_result_eq_ok.1 h
  obtain ⟨entries, -, h⟩ := Reading.bind_result_eq_ok.1 h
  obtain ⟨perPath, hp, h⟩ := Reading.bind_result_eq_ok.1 h
  cases h
  obtain ⟨ofItem, hm, hroute⟩ := List.mem_flatten.1 hroute
  obtain ⟨⟨path, item⟩, -, hi⟩ := Reading.exists_of_mem_mapM hp hm
  exact converted_of_mem_item hi hroute hty

end Routes

end ApiBindings.OpenApi
