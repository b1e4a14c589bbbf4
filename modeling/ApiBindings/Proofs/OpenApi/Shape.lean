import ApiBindings.CommandLine.Session
import ApiBindings.Proofs.OpenApi.Components
import ApiBindings.Proofs.Schema.Shape

/-!
# Documents of the right shape

A document has the right shape if it has a value of the right kind wherever the routes are read from
it (`DocumentShaped`). Keys that are not looked at may hold anything, and so may those whose values
are taken as they are: identifiers, descriptions, types, formats and references.

Every step of the reading is orderly for such a document, one lemma for each function. So the client
of the document is made or a fault is reported (`client_or_report`), and no value of the wrong kind
is ever come upon.
-/

namespace ApiBindings.OpenApi

open Schema
open Value (NullOrMapping NullOrList IsText)

/-! ## Shapes -/

/-- A parameter that is a reference, or has a text for its name and one for its location. -/
def ParameterShaped (parameter : Value) : Prop :=
  ∃ entries, parameter = .mapping entries ∧
    ((Value.valueAt? (.text "$ref") entries).isSome ∨
      (field "name" entries).IsText ∧ (field "in" entries).IsText)

/-- A body whose JSON schema, if it has one, has the right shape. -/
def BodyShaped (body : List (Scalar × Value)) : Prop :=
  (field "content" body).NullOrMapping fun content =>
    (field jsonMediaType content).NullOrMapping fun media =>
      field "schema" media = .null ∨ SchemaShaped (field "schema" media)

/-- The keys of the responses from which the one for the client is taken. -/
def responseKeys : List Scalar := [.text "default", .text "200", .int 200]

/-- Responses whose entries at these keys have the right shape. -/
def ResponsesShaped (responses : List (Scalar × Value)) : Prop :=
  ∀ key ∈ responseKeys, ((Value.valueAt? key responses).getD .null).NullOrMapping BodyShaped

/-- An operation with parameters, a payload and responses of the right shape. -/
structure OperationShaped (operation : List (Scalar × Value)) : Prop where
  parameters : (field "parameters" operation).NullOrList ParameterShaped
  requestBody : (field "requestBody" operation).NullOrMapping BodyShaped
  responses : (field "responses" operation).NullOrMapping ResponsesShaped

/-- A path with parameters and operations of the right shape. -/
structure PathShaped (item : List (Scalar × Value)) : Prop where
  parameters : (field "parameters" item).NullOrList ParameterShaped
  operations : ∀ m : Method, (field m.keyword item).NullOrMapping OperationShaped

/-- A document with paths and components of the right shape. -/
structure DocumentShaped (document : List (Scalar × Value)) : Prop where
  paths : (field "paths" document).NullOrMapping fun paths => ∀ e ∈ paths,
    (Value.scalar e.1).IsText ∧ ∃ item, e.2 = .mapping item ∧ PathShaped item
  components : ComponentsShaped document

/-! ## Orderly readings -/

section Reading

variable {α β : Type}

theorem orderly_bind {r : Reading α} {next : α → Reading β} (h : Orderly r.result)
    (hnext : ∀ a, r.result = .ok a → Orderly (next a).result) : Orderly (r >>= next).result := by
  rw [Reading.result_bind]
  exact h.bind hnext

theorem orderly_mapM {f : α → Reading β} {as : List α} (h : ∀ a ∈ as, Orderly (f a).result) :
    Orderly (as.mapM f).result := by
  rw [Reading.result_mapM]
  exact .mapM h

theorem orderly_get {key : String} {entries : List (Scalar × Value)} {next : Value → Reading α}
    (h : Orderly (next (field key entries)).result) :
    Orderly (((Value.mapping entries).get key : Except Fault Value) >>= next : Reading α).result :=
  h

end Reading

section Shaped

variable {document body operation item paths : List (Scalar × Value)} {place : String} {v : Value}

/-! ## Bodies -/

theorem orderly_bodyType (hc : ComponentsShaped document) (hb : BodyShaped body) (place : String) :
    Orderly (bodyType (.mapping document) (.mapping body) place).result := by
  obtain ⟨content, hcontent, hmedia⟩ := hb.orElse_eq trivial
  unfold bodyType
  refine orderly_get ?_
  rw [hcontent]
  refine orderly_get ?_
  rcases hmedia.null_or with hnull | ⟨media, hmedia, hschema⟩
  · rw [hnull]
    exact .of_ok rfl
  rw [hmedia]
  refine orderly_get ?_
  rcases hschema with hnull | hschema
  · rw [hnull]
    exact .of_ok rfl
  obtain ⟨found, hfound, -⟩ := resolve_of_shaped hc hschema
  obtain ⟨entries, hentries⟩ := hschema.exists_entries
  rw [hentries] at hschema hfound ⊢
  refine orderly_bind (.of_ok hfound) fun found' hr => ?_
  cases hfound.symm.trans hr
  cases found with
  | none => exact orderly_get (.of_ok rfl)
  | some r =>
    refine orderly_bind ?_ fun ty _ => .of_ok rfl
    change Orderly (convert (.mapping document) r place)
    rw [convert_eq_convertAt hfound]
    exact orderly_convertAt hc hschema [] place

theorem orderly_bodyType? (hc : ComponentsShaped document) (hv : v.NullOrMapping BodyShaped)
    (place : String) : Orderly (bodyType? (.mapping document) v place).result := by
  rcases hv.null_or with rfl | ⟨body, rfl, hb⟩
  · exact .of_ok rfl
  have hmentioned : bodyType? (.mapping document) (.mapping body) place =
      if (Value.valueAt? (.text "$ref") body).isSome then Reading.yield none
      else bodyType (.mapping document) (.mapping body) place := rfl
  rw [hmentioned]
  split
  · exact .of_ok rfl
  · exact orderly_bodyType hc hb place

theorem selectedResponse_of_shaped (h : OperationShaped operation) :
    ∃ response, selectedResponse (.mapping operation) = .ok response ∧
      response.NullOrMapping BodyShaped := by
  obtain ⟨responses, hresponses, hshaped⟩ := h.responses.orElse_eq fun key _ => trivial
  have hselected : selectedResponse (.mapping operation) =
      ((field "responses" operation).orElse (.mapping [])).entries >>= fun responses =>
        if (field "default" responses).isNull then
          .ok ((Value.valueAt? (.text "200") responses).getD
            ((Value.valueAt? (.int 200) responses).getD .null))
        else .ok (field "default" responses) := rfl
  rw [hselected, hresponses]
  change ∃ response, (if (field "default" responses).isNull then _ else _) = _ ∧ _
  split
  · refine ⟨_, rfl, ?_⟩
    have htext := hshaped (.text "200") (by simp [responseKeys])
    cases hv : Value.valueAt? (.text "200") responses with
    | none => exact hshaped (.int 200) (by simp [responseKeys])
    | some v =>
      rw [hv] at htext
      exact htext
  · exact ⟨_, rfl, hshaped (.text "default") (by simp [responseKeys])⟩

/-! ## Parameters -/

/-- A parameter with a text for its name and one for its location. -/
def Named (parameter : Value) : Prop :=
  ∃ entries, parameter = .mapping entries ∧
    (field "name" entries).IsText ∧ (field "in" entries).IsText

theorem addParameter_of_shaped {table : List (ParameterKey × Value)} {parameter : Value}
    (h : ParameterShaped parameter) (ht : ∀ e ∈ table, Named e.2) :
    ∃ table', addParameter table parameter = .ok table' ∧ ∀ e ∈ table', Named e.2 := by
  obtain ⟨entries, rfl, hshape⟩ := h
  have hadd : addParameter table (.mapping entries) =
      if (Value.valueAt? (.text "$ref") entries).isSome then .ok table
      else (field "name" entries).asKey >>= fun name =>
        (field "in" entries).asKey >>= fun location =>
          .ok (Table.put (name, location) (.mapping entries) table) := rfl
  rw [hadd]
  split
  · exact ⟨table, rfl, ht⟩
  · rename_i hreference
    obtain ⟨⟨name, hname⟩, ⟨location, hlocation⟩⟩ := hshape.resolve_left hreference
    rw [hname, hlocation]
    refine ⟨_, rfl, fun e he => ?_⟩
    rcases Table.snd_of_mem_put he with heq | he
    · exact ⟨entries, heq, ⟨name, hname⟩, ⟨location, hlocation⟩⟩
    · exact ht e he

theorem foldlM_addParameter {parameters : List Value} {table : List (ParameterKey × Value)}
    (h : ∀ parameter ∈ parameters, ParameterShaped parameter) (ht : ∀ e ∈ table, Named e.2) :
    ∃ table', parameters.foldlM addParameter table = .ok table' ∧ ∀ e ∈ table', Named e.2 := by
  induction parameters generalizing table with
  | nil => exact ⟨table, rfl, ht⟩
  | cons parameter parameters ih =>
    obtain ⟨next, hnext, hnamed⟩ := addParameter_of_shaped (h parameter List.mem_cons_self) ht
    obtain ⟨table', htable', hall⟩ := ih (fun p hp => h p (List.mem_cons_of_mem _ hp)) hnamed
    refine ⟨table', ?_, hall⟩
    rw [List.foldlM_cons, hnext]
    exact htable'

theorem orderly_urlParameter? {parameter : Value} (h : Named parameter) :
    Orderly (urlParameter? parameter) := by
  obtain ⟨entries, rfl, ⟨name, hname⟩, -⟩ := h
  have hitem : (Value.mapping entries).item "name" = .ok (.text name) := by
    unfold field at hname
    cases hv : Value.valueAt? (.text "name") entries with
    | none =>
      rw [hv] at hname
      cases hname
    | some v =>
      rw [hv] at hname
      rw [Value.item, hv]
      exact congrArg Except.ok hname
  unfold urlParameter?
  refine Orderly.bind (.of_ok rfl) fun location _ => ?_
  split
  · refine Orderly.bind (.of_ok hitem) fun name _ => ?_
    exact Orderly.bind (.toExcept _) fun name _ => .of_ok rfl
  · exact .of_ok rfl

theorem orderly_urlParameters {shared own : Value} (hs : shared.NullOrList ParameterShaped)
    (ho : own.NullOrList ParameterShaped) : Orderly (urlParameters shared own) := by
  obtain ⟨sharedItems, hshared, hsharedItems⟩ := hs.orElse_eq
  obtain ⟨ownItems, hown, hownItems⟩ := ho.orElse_eq
  have hall : ∀ parameter ∈ sharedItems ++ ownItems, ParameterShaped parameter := fun p hp =>
    (List.mem_append.1 hp).elim (hsharedItems p) (hownItems p)
  obtain ⟨table, htable, hnamed⟩ := @foldlM_addParameter _ [] hall nofun
  unfold urlParameters
  rw [hshared, hown]
  refine Orderly.bind (.of_ok rfl) fun first hfirst => ?_
  refine Orderly.bind (.of_ok rfl) fun second hsecond => ?_
  cases hfirst
  cases hsecond
  refine Orderly.bind (.of_ok htable) fun table' htable' => ?_
  cases htable.symm.trans htable'
  exact Orderly.bind (.mapM fun e he => orderly_urlParameter? (hnamed e he)) fun _ _ => .of_ok rfl

/-! ## Routes -/

theorem orderly_operationId (path : Value) (method : String) :
    Orderly (operationId path method (.mapping operation)) := by
  unfold operationId
  refine Orderly.bind (.of_ok rfl) fun id _ => ?_
  split
  · exact .of_expected rfl
  · exact .of_ok rfl

theorem orderly_routeOfOperation {shared : Value} (hc : ComponentsShaped document)
    (ho : OperationShaped operation) (hs : shared.NullOrList ParameterShaped) (path : String)
    (m : Method) (version : Value) :
    Orderly (routeOfOperation (.mapping document) (.text path) m.keyword (.mapping operation) shared
      version).result := by
  obtain ⟨response, hresponse, hshaped⟩ := selectedResponse_of_shaped ho
  unfold routeOfOperation
  refine orderly_bind (orderly_operationId _ _) fun id _ => ?_
  refine orderly_get (orderly_get ?_)
  refine orderly_bind (.of_ok m.parse_keyword) fun method _ => ?_
  refine orderly_bind (.of_ok rfl) fun pathText _ => ?_
  refine orderly_get ?_
  refine orderly_bind (orderly_urlParameters hs ho.parameters) fun parameters _ => ?_
  refine orderly_get ?_
  refine orderly_bind (orderly_bodyType? hc ho.requestBody _) fun payload _ => ?_
  refine orderly_bind (.of_ok hresponse) fun selected hselected => ?_
  cases hresponse.symm.trans hselected
  refine orderly_bind (orderly_bodyType? hc hshaped _) fun response _ => ?_
  exact .toExcept _

theorem orderly_routesOfPath (hc : ComponentsShaped document) (hp : PathShaped item) (path : String)
    (version : Value) :
    Orderly (routesOfPath (.mapping document) (.text path) (.mapping item) version).result := by
  unfold routesOfPath
  refine orderly_bind (.of_ok rfl) fun entries hentries => ?_
  cases hentries
  refine orderly_mapM fun e he => ?_
  obtain ⟨m, -, he⟩ := List.mem_filterMap.1 he
  rcases (hp.operations m).null_or with hnull | ⟨operation, hoperation, hshaped⟩
  · rw [hnull] at he
    cases he
  · rw [hoperation] at he
    cases he
    exact orderly_routeOfOperation hc hshaped hp.parameters path m version

theorem orderly_routesOfItem (hc : ComponentsShaped document) (hp : PathShaped item) (path : String)
    (version : Value) :
    Orderly (routesOfItem (.mapping document) (.text path) (.mapping item) version).result := by
  unfold routesOfItem
  refine orderly_bind (.of_ok rfl) fun mentioned _ => ?_
  split
  · exact .of_ok rfl
  · exact orderly_routesOfPath hc hp path version

theorem orderly_routesOf (hd : DocumentShaped document) (version : Value) :
    Orderly (routesOf (.mapping document) version).result := by
  obtain ⟨paths, hpaths, hshaped⟩ := hd.paths.orElse_eq nofun
  unfold routesOf
  refine orderly_get ?_
  rw [hpaths]
  refine orderly_bind (.of_ok rfl) fun entries hentries => ?_
  cases hentries
  refine orderly_bind (orderly_mapM fun e he => ?_) fun routes _ => .of_ok rfl
  obtain ⟨key, v⟩ := e
  obtain ⟨⟨path, hpath⟩, item, hitem, hp⟩ := hshaped (key, v) he
  cases hpath
  cases hitem
  exact orderly_routesOfItem hd.components hp path version

/-! ## Clients -/

theorem orderly_ofFormat {format : String} (hf : format ∈ Settings.formats) (v : Value) :
    Orderly (DocumentKind.ofFormat v format) := by
  have hdocument : Orderly (DocumentKind.ofDocument v) := by
    unfold DocumentKind.ofDocument
    split
    · split
      · exact .of_ok rfl
      split
      · exact .of_expected rfl
      · exact .of_expected rfl
    · split
      · exact .of_ok rfl
      · exact .of_expected rfl
    · exact .of_expected rfl
  simp only [Settings.formats, List.mem_cons, List.not_mem_nil, or_false] at hf
  rcases hf with rfl | rfl | rfl
  · exact hdocument
  · exact .of_ok rfl
  · exact .of_ok rfl

theorem orderly_routesOfDocument {format : String} (hd : DocumentShaped document)
    (hf : format ∈ Settings.formats) (version : Value) :
    Orderly (routesOfDocument (.mapping document) format version).result := by
  unfold routesOfDocument
  refine orderly_bind (orderly_ofFormat hf _) fun kind _ => ?_
  cases kind with
  | openApi => exact orderly_routesOf hd _
  | apiDoc => exact .of_expected rfl

theorem orderly_ofRoutes (replace : Bool) (routes : List Route) :
    Orderly (Declarations.ofRoutes replace routes) := by
  unfold Declarations.ofRoutes Declarations.Walk.toExcept
  split
  · exact .of_ok rfl
  · exact .of_expected rfl

theorem orderly_ofText (text : String) : Orderly (Source.Language.ofText text) := by
  unfold Source.Language.ofText
  split
  · exact .of_ok rfl
  · exact .of_expected rfl

theorem orderly_clientOf {s : Settings} (hd : DocumentShaped document)
    (hf : s.format ∈ Settings.formats) : Orderly (clientOf (.mapping document) s).result := by
  unfold clientOf Model.ofDocument
  refine orderly_bind (orderly_ofText _) fun language _ => ?_
  refine orderly_bind ?_ fun model _ => .of_ok rfl
  refine orderly_bind (orderly_routesOfDocument hd hf _) fun routes _ => ?_
  exact orderly_bind (orderly_ofRoutes _ _) fun declarations _ => .of_ok rfl

theorem reportOf_isSome {f : Fault} (h : f.isExpected) : (CommandLine.reportOf f).isSome := by
  cases f <;> first | rfl | cases h

end Shaped

/-- **A document of the right shape gives a client or a report.** Whatever else is in a document of
the right shape, under settings with one of the formats and any language, the client is made or
making it fails with a fault that is reported. So no value of the wrong kind is come upon. -/
theorem client_or_report {document : List (Scalar × Value)} {s : Settings}
    (hd : DocumentShaped document) (hf : s.format ∈ Settings.formats) :
    (∃ source, (clientOf (.mapping document) s).result = .ok source) ∨
      ∃ f, (clientOf (.mapping document) s).result = .error f ∧ (∀ m, f ≠ .misuse m) ∧
        (CommandLine.reportOf f).isSome := by
  have horderly := orderly_clientOf hd hf
  cases h : (clientOf (.mapping document) s).result with
  | ok source => exact .inl ⟨source, rfl⟩
  | error f =>
    have hexpected := horderly f h
    refine .inr ⟨f, rfl, ?_, reportOf_isSome hexpected⟩
    rintro m rfl
    cases hexpected

/-! ## A tree with odd values -/

theorem shaped_referenceTo (name : String) : SchemaShaped (referenceTo name) :=
  .mapping trivial trivial nofun nofun nofun nofun

theorem shaped_nodeSchema : SchemaShaped nodeSchema := by
  refine .mapping ?_ trivial nofun ?_ nofun nofun
  · intro property hp
    obtain rfl := List.mem_singleton.1 hp
    exact ⟨"children", rfl⟩
  · intro properties hp property hmem
    obtain rfl := Value.mapping.inj hp
    obtain rfl := List.mem_singleton.1 hmem
    exact shaped_referenceTo "NodeList"

theorem shaped_nodeListSchema : SchemaShaped nodeListSchema :=
  .mapping trivial trivial nofun nofun (fun _ => shaped_referenceTo "Node") nofun

/-- An operation whose identifier is a list and whose summary is a truth value. -/
def oddOperation : List (Scalar × Value) :=
  [(.text "operationId", .list [.int 1]), (.text "summary", .bool true),
    (.text "parameters",
      .list [.mapping [(.text "name", .text "id"), (.text "in", .text "path")]]),
    (.text "responses", .mapping [(.text "default", .null), (.int 200, treeBody)])]

/-- A document with this operation, whose response runs through the components in a circle. -/
def oddApi : List (Scalar × Value) :=
  [(.text "paths", .mapping [(.text "/tree", .mapping [(.text "get", .mapping oddOperation)])]),
    (.text "components", treeComponents)]

theorem shaped_oddOperation : OperationShaped oddOperation where
  parameters := by
    intro parameter hp
    obtain rfl := List.mem_singleton.1 hp
    exact ⟨_, rfl, .inr ⟨⟨"id", rfl⟩, ⟨"path", rfl⟩⟩⟩
  requestBody := trivial
  responses := by
    intro key hk
    simp only [responseKeys, List.mem_cons, List.not_mem_nil, or_false] at hk
    rcases hk with rfl | rfl | rfl
    · exact trivial
    · exact trivial
    · exact .inr (shaped_referenceTo "NodeList")

theorem shaped_oddApi : DocumentShaped oddApi where
  paths := by
    intro e he
    obtain rfl := List.mem_singleton.1 he
    refine ⟨⟨"/tree", rfl⟩, _, rfl, trivial, fun m => ?_⟩
    cases m with
    | get => exact shaped_oddOperation
    | _ => exact trivial
  components := by
    intro e he
    rcases List.mem_cons.1 he with rfl | he
    · exact shaped_nodeSchema
    · obtain rfl := List.mem_singleton.1 he
      exact shaped_nodeListSchema

/-- An identifier and a summary that are no texts are reported, or a client is made. -/
theorem odd_values_reported : DocumentShaped oddApi ∧
    ((∃ source, (clientOf (.mapping oddApi) ⟨"ts", "openapi", none, false⟩).result = .ok source) ∨
      ∃ f, (clientOf (.mapping oddApi) ⟨"ts", "openapi", none, false⟩).result = .error f ∧
        (∀ m, f ≠ .misuse m) ∧ (CommandLine.reportOf f).isSome) :=
  ⟨shaped_oddApi, client_or_report shaped_oddApi (by decide)⟩

end ApiBindings.OpenApi
