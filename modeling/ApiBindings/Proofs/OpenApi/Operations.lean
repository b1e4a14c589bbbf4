import ApiBindings.Proofs.OpenApi.Bodies
import ApiBindings.Proofs.Schema.References
import Mathlib.Data.List.TakeWhile

/-!
# Operations and their routes

The operations of a document are those that a path has under the methods, in the order of the
document and inside a path in the order get, post, put, patch, delete; a path that is a reference
has none (`operationsIn`). The routes are read from them one after the other (`result_routesOf`), so
the first operation that cannot be read decides the fault. Where all of them can be read there is
one route for each (`IsRouteOf`), and one warning for each path that is a reference and for each
body whose schema leads nowhere (`itemWarnings`).
-/

namespace ApiBindings.OpenApi

/-! ## Operations -/

/-- An operation of a document, with the parameters of its path. -/
structure Operation where
  path : Scalar
  method : Method
  value : Value
  shared : Value

/-- What a path that is no reference has under a method, unless it is null. -/
def operationAt? (method : Method) (item : Value) : Option Value :=
  if item.isReference then none
  else (item.lookup? method.keyword).filter fun v => !v.isNull

/-- The operations of a path. -/
def operationsAt (path : Scalar) (item : Value) : List Operation :=
  [.get, .post, .put, .patch, .delete].filterMap fun method =>
    (operationAt? method item).map fun v => ⟨path, method, v, item.entry "parameters"⟩

/-- The operations of all paths. -/
def operationsIn (paths : List (Scalar × Value)) : List Operation :=
  paths.flatMap fun e => operationsAt e.1 e.2

/-- The paths of a document, none where there is no table of them. -/
def HasPaths (document : Value) (paths : List (Scalar × Value)) : Prop :=
  document.isMapping ∧ (document.entry "paths").HasEntries paths

/-- The default response unless it is null, else the one under the text 200, else the one under the
number. -/
def selectedFrom (responses : List (Scalar × Value)) : Value :=
  match Value.valueAt? (.text "default") responses, Value.valueAt? (.text "200") responses with
  | none, some success | some .null, some success => success
  | none, none | some .null, none => (Value.valueAt? (.int 200) responses).getD .null
  | some standard, _ => standard

namespace Operation

variable (operation : Operation)

/-- The reading of the route of an operation. -/
def read (document version : Value) : Reading Route :=
  routeOfOperation document (.scalar operation.path) operation.method.keyword operation.value
    operation.shared version

/-- The body of a request. -/
def requestBody : Value := operation.value.entry "requestBody"

/-- The body that a client is given: the default response unless it is null, else the one under the
text 200, else the one under the number. -/
def response : Value :=
  match operation.value.entry "responses" with
  | .mapping responses => selectedFrom responses
  | _ => .null

end Operation

/-! ## Bodies -/

/-- The JSON schema of a body, null if it has none. -/
def jsonSchema (body : Value) : Value :=
  ((body.entry "content").entry jsonMediaType).entry "schema"

/-- A schema is a reference that leads nowhere. -/
def Unresolvable (document schema : Value) : Prop :=
  schema ≠ .null ∧ ∀ r, ¬ Schema.Finds document schema r

/-- A body without a type: it is absent, a reference, without a JSON schema, or has one that is a
reference leading nowhere. -/
inductive Untyped (document body : Value) : Prop where
  | absent (h : body = .null)
  | reference (h : body.isReference)
  | withoutSchema (h : jsonSchema body = .null)
  | unresolvable (h : Unresolvable document (jsonSchema body))

open scoped Classical in
/-- The warnings about a schema: one if it is a reference that leads nowhere. -/
noncomputable def schemaWarnings (document schema : Value) (place : String) : List Warning :=
  if Unresolvable document schema then
    [.unresolvedBody place (schema.entry "$ref").spelling]
  else []

/-- The warnings about the schema of a body that is no reference itself. -/
noncomputable def bodyWarnings (document body : Value) (place : String) : List Warning :=
  if body.isReference then [] else schemaWarnings document (jsonSchema body) place

section Bodies

variable {document body schema : Value} {place : String} {ty : Option Ty}
  {warnings : List Warning}

theorem not_unresolvable_null : ¬ Unresolvable document .null := fun h => h.1 rfl

theorem unresolvable_iff {found : Option Schema.Resolved} (hs : schema.isNull = false)
    (h : Schema.resolve document schema = .ok found) :
    Unresolvable document schema ↔ found = none := by
  have hne : schema ≠ .null := by
    rintro rfl
    cases hs
  rw [Unresolvable, and_iff_right hne, Option.eq_none_iff_forall_ne_some]
  exact forall_congr' fun r => not_congr (Schema.resolve_eq_some_iff h).symm

theorem schemaWarnings_null : schemaWarnings document .null place = [] :=
  if_neg not_unresolvable_null

/-- The type of a body and the warnings about it, told from its JSON schema. -/
theorem bodyType_eq_mk_ok (h : bodyType document body place = ⟨warnings, .ok ty⟩) :
    (ty = none ↔ jsonSchema body = .null ∨ Unresolvable document (jsonSchema body)) ∧
    warnings = schemaWarnings document (jsonSchema body) place := by
  unfold bodyType at h
  obtain ⟨content, hcontent, h⟩ := Reading.lift_bind_eq_mk_ok.1 h
  obtain ⟨media, hmedia, h⟩ := Reading.lift_bind_eq_mk_ok.1 h
  have hjson : jsonSchema body = media.entry "schema" := by
    rw [jsonSchema, Value.entry_of_get hcontent, Value.entry_of_orElse hmedia]
  split at h
  · rename_i hmedianull
    have hnull : jsonSchema body = .null := by
      rw [hjson, Value.eq_null_of_isNull hmedianull]
      rfl
    rw [hnull, schemaWarnings_null]
    cases h
    exact ⟨iff_of_true rfl (.inl rfl), rfl⟩
  obtain ⟨schema, hschema, h⟩ := Reading.lift_bind_eq_mk_ok.1 h
  rw [hjson, Value.entry_of_get hschema]
  split at h
  · rename_i hnull
    rw [Value.eq_null_of_isNull hnull, schemaWarnings_null]
    cases h
    exact ⟨iff_of_true rfl (.inl rfl), rfl⟩
  rename_i hnull
  have hpresent : schema ≠ .null := by
    rintro rfl
    exact hnull rfl
  obtain ⟨found, hfound, h⟩ := Reading.lift_bind_eq_mk_ok.1 h
  have hunresolvable := unresolvable_iff (Bool.eq_false_iff.2 hnull) hfound
  cases found with
  | none =>
    obtain ⟨reference, hreference, h⟩ := Reading.lift_bind_eq_mk_ok.1 h
    cases h
    rw [schemaWarnings, if_pos (hunresolvable.2 rfl), Value.entry_of_get hreference]
    exact ⟨iff_of_true rfl (.inr (hunresolvable.2 rfl)), rfl⟩
  | some r =>
    obtain ⟨converted, -, h⟩ := Reading.lift_bind_eq_mk_ok.1 h
    cases h
    have hresolvable : ¬ Unresolvable document schema := fun hn => nomatch hunresolvable.1 hn
    rw [schemaWarnings, if_neg hresolvable]
    exact ⟨iff_of_false nofun (not_or.2 ⟨hpresent, hresolvable⟩), rfl⟩

/-- Which bodies have no type, and which of them are warned about. -/
theorem bodyType?_eq_mk_ok (h : bodyType? document body place = ⟨warnings, .ok ty⟩) :
    (ty = none ↔ Untyped document body) ∧ warnings = bodyWarnings document body place := by
  unfold bodyType? at h
  split at h
  · rename_i hnull
    cases h
    obtain rfl := Value.eq_null_of_isNull hnull
    exact ⟨iff_of_true rfl (.absent rfl), schemaWarnings_null.symm⟩
  rename_i hnull
  obtain ⟨mentioned, hmentioned, h⟩ := Reading.lift_bind_eq_mk_ok.1 h
  have hreference := Value.isReference_of_mentions hmentioned
  cases mentioned with
  | true =>
    cases h
    rw [bodyWarnings, if_pos hreference]
    exact ⟨iff_of_true rfl (.reference hreference), rfl⟩
  | false =>
    obtain ⟨hty, hwarnings⟩ := bodyType_eq_mk_ok h
    rw [bodyWarnings, hreference]
    refine ⟨hty.trans ⟨?_, ?_⟩, hwarnings⟩
    · rintro (hschema | hresolve)
      · exact .withoutSchema hschema
      · exact .unresolvable hresolve
    · intro huntyped
      cases huntyped with
      | absent hn => exact absurd (hn ▸ rfl) hnull
      | reference hn => cases hn.symm.trans hreference
      | withoutSchema hn => exact .inl hn
      | unresolvable hn => exact .inr hn

end Bodies

/-! ## The route of an operation -/

namespace Operation

/-- The warnings about the bodies of an operation. -/
noncomputable def warnings (document : Value) (operation : Operation) : List Warning :=
  let id := (operation.value.entry "operationId").spelling
  bodyWarnings document operation.requestBody (id ++ " payload") ++
    bodyWarnings document operation.response (id ++ " response")

/-- A route belongs to the path of an operation, has its method and identifier, and has types for
exactly those of its bodies that give one. -/
structure IsRouteOf (document : Value) (operation : Operation) (route : Route) : Prop where
  group : operation.path = .text route.group
  method : route.method = operation.method
  name : operation.value.entry "operationId" = .text route.name
  payload : route.payload = none ↔ Untyped document operation.requestBody
  response : route.response = none ↔ Untyped document operation.response

variable {document version : Value} {operation : Operation} {route : Route}

theorem selectedFrom_eq (responses : List (Scalar × Value)) :
    selectedFrom responses =
      if (Schema.field "default" responses).isNull then
        (Value.valueAt? (.text "200") responses).getD
          ((Value.valueAt? (.int 200) responses).getD .null)
      else Schema.field "default" responses := by
  rw [selectedFrom, Schema.field]
  cases Value.valueAt? (.text "200") responses <;>
    rcases Value.valueAt? (.text "default") responses with _ | ⟨_ | _⟩ | _ | _ <;> rfl

theorem response_of_selectedResponse {selected : Value}
    (h : selectedResponse operation.value = .ok selected) : operation.response = selected := by
  obtain ⟨responses, hresponses, h⟩ := bind_eq_ok.1 h
  obtain ⟨entries, hentries, h⟩ := bind_eq_ok.1 h
  have hselected : selected = selectedFrom entries := by
    rw [selectedFrom_eq]
    simp only at h
    split at h
    · rw [if_pos ‹_›]
      exact (Except.ok.inj h).symm
    · rw [if_neg ‹_›]
      exact (Except.ok.inj h).symm
  rw [response, Value.entry_of_get hresponses, hselected]
  rcases Value.entries_of_orElse_eq_ok_iff.1 hentries with rfl | ⟨hfalse, rfl⟩
  · rfl
  · cases responses with
    | mapping responses =>
      have hempty : responses = [] := by simpa [Value.isTrue] using hfalse
      rw [hempty]
    | _ => rfl

theorem isRouteOf_of_read (h : (operation.read document version).result = .ok route) :
    operation.IsRouteOf document route ∧
      (operation.read document version).warnings = operation.warnings document := by
  obtain ⟨-, -, hgroup, hmethod, hname, requestBody, selected, sent, given, hrequest, hselected,
    hpayload, hresponse, hwarnings⟩ := readFrom_of_routeOfOperation h
  have hid := Value.entry_of_get hname
  have hbody : operation.requestBody = requestBody := Value.entry_of_get hrequest
  have hgiven := response_of_selectedResponse hselected
  obtain ⟨hsent, hsentwarnings⟩ := bodyType?_eq_mk_ok hpayload
  obtain ⟨hreceived, hreceivedwarnings⟩ := bodyType?_eq_mk_ok hresponse
  constructor
  · exact {
      group := Value.scalar.inj hgroup
      method := (Except.ok.inj ((Method.parse_keyword _).symm.trans hmethod)).symm
      name := hid
      payload := hbody ▸ hsent
      response := hgiven ▸ hreceived
    }
  · rw [Operation.read, hwarnings, warnings, hid, hbody, hgiven, Value.spelling_text,
      hsentwarnings, hreceivedwarnings]

end Operation

/-! ## Reading the paths -/

/-- Whether operations can be looked for in what a path has: it is a reference or a mapping. -/
def isPathItem (item : Value) : Bool := item.isReference || item.isMapping

/-- The warnings about a path, or about the bodies of its operations. -/
noncomputable def itemWarnings (document : Value) (e : Scalar × Value) : List Warning :=
  if e.2.isReference then [.pathReference e.1.spelling]
  else (operationsAt e.1 e.2).flatMap (Operation.warnings document)

section Paths

variable {document version item : Value} {path : Scalar} {entries : List (Scalar × Value)}

theorem item_cases (item : Value) :
    (item.mentions "$ref" = .ok true ∧ item.isReference) ∨
    (∃ entries, item = .mapping entries ∧ Value.valueAt? (.text "$ref") entries = none) ∨
    (isPathItem item = false ∧ ∀ mentioned, item.mentions "$ref" = .ok mentioned →
      mentioned = false ∧ item.isMapping = false) := by
  cases hmentions : item.mentions "$ref" with
  | error f =>
    refine .inr (.inr ⟨?_, nofun⟩)
    cases item with
    | scalar s =>
      cases s with
      | text s => cases hmentions
      | _ => rfl
    | _ => cases hmentions
  | ok mentioned =>
    have hreference := Value.isReference_of_mentions hmentions
    cases mentioned with
    | true => exact .inl ⟨rfl, hreference⟩
    | false =>
      cases item with
      | mapping entries =>
        exact .inr (.inl ⟨entries, rfl, Value.lookup?_of_mentions hmentions⟩)
      | _ =>
        rw [isPathItem, hreference]
        exact .inr (.inr ⟨rfl, fun _ h => ⟨(Except.ok.inj h).symm, rfl⟩⟩)

theorem operationsAt_of_reference (h : item.isReference) : operationsAt path item = [] := by
  rw [operationsAt, List.filterMap_eq_nil_iff]
  intro m hm
  rw [operationAt?, if_pos h]
  rfl

theorem isReference_mapping (h : Value.valueAt? (.text "$ref") entries = none) :
    (Value.mapping entries).isReference = false := by
  rw [Value.isReference, h]
  rfl

theorem operationAt?_mapping (h : Value.valueAt? (.text "$ref") entries = none) (m : Method) :
    operationAt? m (.mapping entries) =
      if (Schema.field m.keyword entries).isNull then none
      else some (Schema.field m.keyword entries) := by
  rw [operationAt?, isReference_mapping h, Schema.field, Value.lookup?_mapping]
  cases Value.valueAt? (.text m.keyword) entries with
  | none => rfl
  | some v =>
    cases hnull : v.isNull with
    | true => simp [hnull]
    | false => simp [hnull]

theorem operationsAt_mapping (h : Value.valueAt? (.text "$ref") entries = none) :
    operationsAt path (.mapping entries) = (operationsOf entries).map fun e =>
      ⟨path, e.1, e.2, Schema.field "parameters" entries⟩ := by
  rw [operationsOf, List.map_filterMap]
  refine List.filterMap_congr fun m _ => ?_
  rw [operationAt?_mapping h]
  cases hnull : (Schema.field m.keyword entries).isNull with
  | true => simp [hnull]
  | false => simp [hnull]; rfl

theorem routesOfItem_of_reference (h : item.mentions "$ref" = .ok true) :
    routesOfItem document (.scalar path) item version =
      ⟨[.pathReference path.spelling], .ok []⟩ := by
  rw [routesOfItem, h]
  rfl

theorem routesOfItem_mapping (h : Value.valueAt? (.text "$ref") entries = none) :
    routesOfItem document (.scalar path) (.mapping entries) version =
      (operationsAt path (.mapping entries)).mapM fun o => o.read document version := by
  rw [operationsAt_mapping h, List.mapM_map, routesOfItem, Value.mentions_mapping, h]
  rfl

theorem result_routesOfItem (h : isPathItem item) :
    (routesOfItem document (.scalar path) item version).result =
      (operationsAt path item).mapM fun o => (o.read document version).result := by
  rcases item_cases item with ⟨hmentions, hreference⟩ | ⟨entries, rfl, hat⟩ | ⟨hnone, -⟩
  · rw [routesOfItem_of_reference hmentions, operationsAt_of_reference hreference]
    rfl
  · rw [routesOfItem_mapping hat, Reading.result_mapM]
  · cases h.symm.trans hnone

theorem isPathItem_of_routesOfItem {routes : List Route}
    (h : (routesOfItem document (.scalar path) item version).result = .ok routes) :
    isPathItem item := by
  rcases item_cases item with ⟨-, hreference⟩ | ⟨entries, rfl, -⟩ | ⟨-, hnone⟩
  · rw [isPathItem, hreference]
    rfl
  · exact Bool.or_true _
  · unfold routesOfItem at h
    obtain ⟨mentioned, hmentioned, h⟩ := Reading.bind_result_eq_ok.1 h
    obtain ⟨rfl, hmapping⟩ := hnone mentioned hmentioned
    obtain ⟨entries, hentries, -⟩ := Reading.bind_result_eq_ok.1 h
    rw [Value.eq_mapping_of_entries hentries] at hmapping
    cases hmapping

theorem warnings_routesOfItem {routes : List Route}
    (h : (routesOfItem document (.scalar path) item version).result = .ok routes) :
    (routesOfItem document (.scalar path) item version).warnings =
      itemWarnings document (path, item) := by
  have hitem := isPathItem_of_routesOfItem h
  rcases item_cases item with ⟨hmentions, hreference⟩ | ⟨entries, rfl, hat⟩ | ⟨hnone, -⟩
  · rw [routesOfItem_of_reference hmentions, itemWarnings, if_pos hreference]
  · rw [routesOfItem_mapping hat] at h ⊢
    rw [itemWarnings, isReference_mapping hat, Reading.warnings_mapM h]
    rw [Reading.result_mapM] at h
    refine List.flatMap_congr fun o ho => ?_
    obtain ⟨route, -, hroute⟩ := exists_of_mem_left (forall₂_of_mapM h) ho
    exact (Operation.isRouteOf_of_read hroute).2
  · cases hitem.symm.trans hnone

end Paths

/-! ## Reading a document -/

section Documents

variable {document version : Value} {paths : List (Scalar × Value)} {routes : List Route}
  {f : Fault}

theorem hasPaths_iff : HasPaths document paths ↔
    ∃ found, document.get "paths" = .ok found ∧
      (found.orElse (.mapping [])).entries = .ok paths := by
  simp only [Value.entries_of_orElse_eq_ok_iff]
  constructor
  · rintro ⟨hmapping, hpaths⟩
    cases document with
    | mapping entries => exact ⟨_, rfl, hpaths⟩
    | _ => cases hmapping
  · rintro ⟨found, hfound, hpaths⟩
    rw [HasPaths, Value.entry_of_get hfound]
    cases document with
    | mapping entries => exact ⟨rfl, hpaths⟩
    | _ => cases hfound

theorem routesOf_eq (hpaths : HasPaths document paths) :
    routesOf document version = do
      let routes ← paths.mapM fun e => routesOfItem document (.scalar e.1) e.2 version
      return routes.flatten := by
  obtain ⟨found, hfound, hentries⟩ := hasPaths_iff.1 hpaths
  rw [routesOf, hfound]
  change liftM (found.orElse (.mapping [])).entries >>= _ = _
  rw [hentries]
  rfl

theorem hasPaths_of_routesOf (h : (routesOf document version).result = .ok routes) :
    ∃ paths, HasPaths document paths := by
  obtain ⟨found, hfound, h⟩ := Reading.bind_result_eq_ok.1 h
  obtain ⟨paths, hentries, -⟩ := Reading.bind_result_eq_ok.1 h
  exact ⟨paths, hasPaths_iff.2 ⟨found, hfound, hentries⟩⟩

/-- Reading paths one after the other is reading their operations one after the other. -/
theorem mapM_routesOfItem (h : ∀ e ∈ paths, isPathItem e.2) :
    (do
      let routes ← paths.mapM fun e => (routesOfItem document (.scalar e.1) e.2 version).result
      return routes.flatten) =
      (operationsIn paths).mapM fun o => (o.read document version).result := by
  induction paths with
  | nil => rfl
  | cons e paths ih =>
    obtain ⟨he, hpaths⟩ := List.forall_mem_cons.1 h
    -- Both sides read the operations of `e` first, and the lists are put together afterwards.
    rw [operationsIn, List.flatMap_cons, List.mapM_append, ← operationsIn, ← ih hpaths,
      List.mapM_cons, result_routesOfItem he]
    simp only [bind_assoc, pure_bind, List.flatten_cons]

theorem result_routesOf (hpaths : HasPaths document paths) (h : ∀ e ∈ paths, isPathItem e.2) :
    (routesOf document version).result =
      (operationsIn paths).mapM fun o => (o.read document version).result := by
  rw [routesOf_eq hpaths, Reading.result_bind, Reading.result_mapM, ← mapM_routesOfItem h]
  rfl

theorem exists_routesOfItem (hpaths : HasPaths document paths)
    (h : (routesOf document version).result = .ok routes) :
    ∃ perPath, (paths.mapM fun e => routesOfItem document (.scalar e.1) e.2 version).result =
        .ok perPath ∧
      ∀ e ∈ paths, ∃ routes,
        (routesOfItem document (.scalar e.1) e.2 version).result = .ok routes := by
  rw [routesOf_eq hpaths] at h
  obtain ⟨perPath, hperPath, -⟩ := Reading.bind_result_eq_ok.1 h
  refine ⟨perPath, hperPath, fun e he => ?_⟩
  rw [Reading.result_mapM] at hperPath
  obtain ⟨routes, -, hroutes⟩ := exists_of_mem_left (forall₂_of_mapM hperPath) he
  exact ⟨routes, hroutes⟩

theorem forall₂_isRouteOf (hpaths : HasPaths document paths)
    (h : (routesOf document version).result = .ok routes) :
    List.Forall₂ (Operation.IsRouteOf document) (operationsIn paths) routes := by
  obtain ⟨-, -, hitems⟩ := exists_routesOfItem hpaths h
  have hall : ∀ e ∈ paths, isPathItem e.2 := fun e he =>
    isPathItem_of_routesOfItem (hitems e he).choose_spec
  rw [result_routesOf hpaths hall] at h
  exact (forall₂_of_mapM h).imp fun o route hroute => (Operation.isRouteOf_of_read hroute).1

theorem warnings_routesOf (hpaths : HasPaths document paths)
    (h : (routesOf document version).result = .ok routes) :
    (routesOf document version).warnings = paths.flatMap (itemWarnings document) := by
  obtain ⟨perPath, hperPath, hitems⟩ := exists_routesOfItem hpaths h
  have hread : (routesOf document version).warnings =
      (paths.mapM fun e => routesOfItem document (.scalar e.1) e.2 version).warnings := by
    rw [routesOf_eq hpaths, Reading.bind_eq, Reading.andThen, hperPath]
    exact List.append_nil _
  rw [hread, Reading.warnings_mapM hperPath]
  exact List.flatMap_congr fun e he => warnings_routesOfItem (hitems e he).choose_spec

/-- The paths before the first one where there is nothing to look into. -/
def readablePaths (paths : List (Scalar × Value)) : List (Scalar × Value) :=
  paths.takeWhile fun e => isPathItem e.2

/-- The operations can be read up to one that fails. -/
def FirstFails (document version : Value) (operations : List Operation) (f : Fault) : Prop :=
  ∃ before failing after, operations = before ++ failing :: after ∧
    (∀ earlier ∈ before, ∃ route, (earlier.read document version).result = .ok route) ∧
    (failing.read document version).result = .error f

theorem error_of_firstFails (hpaths : HasPaths document paths)
    (h : FirstFails document version (operationsIn (readablePaths paths)) f) :
    (routesOf document version).result = .error f := by
  have hread := mapM_eq_error_iff.2 h
  have hitems : ∀ e ∈ readablePaths paths, isPathItem e.2 := fun e he =>
    List.mem_takeWhile_imp (p := fun e : Scalar × Value => isPathItem e.2) he
  rw [← mapM_routesOfItem hitems] at hread
  have hfirst := (bind_eq_error.1 hread).resolve_right (by rintro ⟨_, -, hyield⟩; cases hyield)
  rw [routesOf_eq hpaths, Reading.result_bind, Reading.result_mapM]
  refine bind_eq_error.2 (.inl ?_)
  obtain ⟨rest, hrest⟩ : readablePaths paths <+: paths := List.takeWhile_prefix _
  rw [← hrest, List.mapM_append, hfirst]
  rfl

/-! ## Operations that differ -/

theorem path_of_mem_operationsAt {path : Scalar} {item : Value} {o : Operation}
    (h : o ∈ operationsAt path item) : o.path = path := by
  obtain ⟨m, -, hm⟩ := List.mem_filterMap.1 h
  obtain ⟨v, -, rfl⟩ := Option.map_eq_some_iff.1 hm
  rfl

theorem operationsAt_apart (path : Scalar) (item : Value) :
    (operationsAt path item).Pairwise fun o later => o.method ≠ later.method := by
  have hmethods : [Method.get, .post, .put, .patch, .delete].Nodup := by decide
  refine List.pairwise_filterMap.2 (hmethods.imp ?_)
  rintro m m' hne o ho o' ho'
  obtain ⟨v, -, rfl⟩ := Option.map_eq_some_iff.1 ho
  obtain ⟨v', -, rfl⟩ := Option.map_eq_some_iff.1 ho'
  exact hne

/-- Different operations differ in the path or in the method, if no path is there twice. -/
theorem operationsIn_apart (h : paths.Pairwise fun e later => (e.1 == later.1) = false) :
    (operationsIn paths).Pairwise fun o later =>
      (o.path == later.path) = false ∨ o.method ≠ later.method := by
  refine List.pairwise_flatMap.2 ⟨fun e _ => (operationsAt_apart e.1 e.2).imp .inr, h.imp ?_⟩
  intro e later hne o ho o' ho'
  rw [path_of_mem_operationsAt ho, path_of_mem_operationsAt ho']
  exact .inl hne

theorem nodup_of_isRouteOf (h : paths.Pairwise fun e later => (e.1 == later.1) = false)
    (hroutes : List.Forall₂ (Operation.IsRouteOf document) (operationsIn paths) routes) :
    (routes.map fun r => (r.group, r.method)).Nodup := by
  have hkeys : ((operationsIn paths).map fun o => (o.path, o.method)) =
      routes.map fun r => (Scalar.text r.group, r.method) := by
    rw [← List.forall₂_eq_eq_eq, List.forall₂_map_left_iff, List.forall₂_map_right_iff]
    exact hroutes.imp fun o route hroute => Prod.ext hroute.group hroute.method.symm
  have hapart : ((operationsIn paths).map fun o => (o.path, o.method)).Pairwise fun k later =>
      (k.1 == later.1) = false ∨ k.2 ≠ later.2 := List.pairwise_map.2 (operationsIn_apart h)
  -- The paths of routes are texts, so paths that are equal as keys are equal.
  rw [hkeys, List.pairwise_map] at hapart
  refine List.pairwise_map.2 (hapart.imp ?_)
  intro r r' hdiffer hsame
  obtain ⟨hgroup, hmethod⟩ := Prod.mk.inj hsame
  rcases hdiffer with hpath | hne
  · rw [Scalar.text_beq_text, hgroup, beq_self_eq_true] at hpath
    cases hpath
  · exact hne hmethod

/-- **Every operation becomes a route.** Where the routes of a document can be read, there is one
for each operation and they are in the order of the operations. Each has the path and the method of
its operation, so no two have both in common (no key is twice in a mapping), and it lacks the types
of exactly those bodies that give none. There is one warning for each path that is a reference and
one for each body whose schema leads nowhere. The first operation that cannot be read decides the
fault, unless there is nothing to look into for a path before it; and if there is something for all
paths, reading fails for no other reason. -/
theorem operations_become_routes (document version : Value) :
    (∀ routes, (routesOf document version).result = .ok routes →
      ∃ paths, HasPaths document paths ∧
        List.Forall₂ (Operation.IsRouteOf document) (operationsIn paths) routes ∧
        ((paths.Pairwise fun e later => (e.1 == later.1) = false) →
          (routes.map fun r => (r.group, r.method)).Nodup) ∧
        (routesOf document version).warnings = paths.flatMap (itemWarnings document)) ∧
    ∀ paths, HasPaths document paths → ∀ f,
      (FirstFails document version (operationsIn (readablePaths paths)) f →
        (routesOf document version).result = .error f) ∧
      ((∀ e ∈ paths, isPathItem e.2) → (routesOf document version).result = .error f →
        FirstFails document version (operationsIn paths) f) := by
  constructor
  · intro routes h
    obtain ⟨paths, hpaths⟩ := hasPaths_of_routesOf h
    have hroutes := forall₂_isRouteOf hpaths h
    exact ⟨paths, hpaths, hroutes, fun hdistinct => nodup_of_isRouteOf hdistinct hroutes,
      warnings_routesOf hpaths h⟩
  · intro paths hpaths f
    refine ⟨error_of_firstFails hpaths, fun hitems hf => ?_⟩
    rw [result_routesOf hpaths hitems] at hf
    exact mapM_eq_error_iff.1 hf

end Documents

def bodyOf (schema : Value) : Value := .mapping [(.text "content", .mapping
  [(.text "application/json", .mapping [(.text "schema", schema)])])]

/-- A schema that the components do not have. -/
def missingSchema (name : String) : Value :=
  .mapping [(.text "$ref", .text ("#/components/schemas/" ++ name))]

/-- A union of two words. -/
def stateSchema : Value := .mapping
  [(.text "type", .text "string"), (.text "enum", .list [.text "active", .text "blocked"])]

/-- An operation that is sent nothing and responds with a word, as its default response is null. -/
def listUsers : Value := .mapping [(.text "operationId", .text "listUsers"),
  (.text "responses", .mapping [(.text "default", .null), (.text "200", bodyOf stateSchema)])]

/-- An operation that is sent and responds with what the components do not have. -/
def createUser (id : Value) : Value := .mapping [(.text "operationId", id),
  (.text "requestBody", bodyOf (missingSchema "User")),
  (.text "responses", .mapping [(.text "200", bodyOf stateSchema),
    (.text "default", bodyOf (missingSchema "Receipt"))])]

/-- A document with a path that is a reference and a path with these operations. -/
def userApi (id : Value) : Value := .mapping [(.text "paths", .mapping [
  (.text "/people", .mapping [(.text "$ref", .text "people.yaml")]),
  (.text "/users", .mapping [(.text "post", createUser id), (.text "get", listUsers)])])]

def listUsersRoute : Route :=
  ⟨"listUsers", none, .get, "/users", "/users", "", [], none,
    some (.union "listUsers response" ["active", "blocked"])⟩

def userRoutes : List Route :=
  [listUsersRoute, ⟨"createUser", none, .post, "/users", "/users", "", [], none, none⟩]

def userWarnings : List Warning :=
  [.pathReference "/people", .unresolvedBody "createUser payload" "#/components/schemas/User",
    .unresolvedBody "createUser response" "#/components/schemas/Receipt"]

/-- The route that lists users comes first and has a type for its response. What the other one is
sent and responds with is warned about. Without the identifier of the second operation there are no
routes. -/
theorem user_operations_become_routes :
    (routesOf (userApi (.text "createUser")) (.text "")).result = .ok userRoutes ∧
    (∃ paths, HasPaths (userApi (.text "createUser")) paths ∧
      List.Forall₂ (Operation.IsRouteOf (userApi (.text "createUser"))) (operationsIn paths)
        userRoutes ∧
      userWarnings = paths.flatMap (itemWarnings (userApi (.text "createUser")))) ∧
    (routesOf (userApi .null) (.text "")).result =
      .error (.missingOperationId "/users" "POST") := by
  have hread : (routesOf (userApi (.text "createUser")) (.text "")).result = .ok userRoutes := rfl
  have hwarnings : (routesOf (userApi (.text "createUser")) (.text "")).warnings = userWarnings :=
    rfl
  obtain ⟨paths, hpaths, hroutes, -, hall⟩ :=
    (operations_become_routes (userApi (.text "createUser")) (.text "")).1 userRoutes hread
  refine ⟨hread, ⟨paths, hpaths, hroutes, hwarnings ▸ hall⟩, ?_⟩
  refine ((operations_become_routes (userApi .null) (.text "")).2 _ ⟨rfl, .inl rfl⟩ _).1 ?_
  refine ⟨[⟨.text "/users", .get, listUsers, .null⟩], ⟨.text "/users", .post, createUser .null, .null⟩,
    [], rfl, ?_, rfl⟩
  intro earlier he
  obtain rfl := List.mem_singleton.1 he
  exact ⟨listUsersRoute, rfl⟩

end ApiBindings.OpenApi
