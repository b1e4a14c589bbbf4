import ApiBindings.Proofs.Declarations.Walk
import ApiBindings.Proofs.OpenApi.Bodies
import ApiBindings.Proofs.Schema.Faithful
import ApiBindings.Proofs.Schema.Termination

/-!
# Declarations of components

While the types of the routes are registered, every component in the table has its complete
definition, and every pending type is faithful and refers back to declared names only
(`FaithfulSoFar`). A component is declared before the types below its definition are visited, so
that a reference back is never met first. As a component has one complete definition, it cannot
conflict.
-/

namespace ApiBindings.OpenApi

open Schema Declarations

/-! ## Walks over faithful types -/

/-- Every component in a table is declared with its complete definition. -/
def Sound (document : Value) (d : Declarations) : Prop :=
  ∀ name ∈ componentNames document, ∀ ty, d.get? name = some ty → Complete document name ty

/-- The table is sound, and the pending types are faithful and refer back to declared names only. -/
structure FaithfulSoFar (document : Value) (p : Progress) : Prop where
  sound : Sound document p.table
  faithful : ∀ ty ∈ p.pending, Faithful document p.table.names ty

section Walk

variable {document : Value} {replace : Bool} {p q : Progress} {d table : Declarations}
  {ty : Ty} {name : String}

/-- A component is declared with its complete definition, since a reference back would be known. -/
theorem Sound.of_declared (hd : Sound document d) (hf : Faithful document d.names ty)
    (hn : ty.name? = some name) (hm : meet replace name ty d = .declared table) :
    Sound document table := by
  obtain ⟨rfl, hr⟩ := meet_declared hm
  intro other ho declared hg
  rw [get?_declare] at hg
  split_ifs at hg with he
  · subst he
    cases hg
    refine (hf.stub_or_complete hn ho).resolve_left ?_
    -- a reference back has a name that is declared, and then nothing is declared
    rintro ⟨hs, hmem⟩
    obtain ⟨earlier, he⟩ := mem_names_iff.1 hmem
    exact (hr earlier he).2.1 hs
  · exact hd other ho declared hg

theorem FaithfulSoFar.advances (h : Advances replace p q) (hp : FaithfulSoFar document p) :
    FaithfulSoFar document q := by
  cases h with
  | @enter ty rest d hn =>
    have hty := hp.faithful ty List.mem_cons_self
    refine ⟨hp.sound, fun child hc => ?_⟩
    rcases List.mem_append.1 hc with hc | hc
    · exact hty.of_unnamed hn child hc
    · exact hp.faithful child (List.mem_cons_of_mem _ hc)
  | pass hn hm => exact ⟨hp.sound, fun ty ht => hp.faithful ty (List.mem_cons_of_mem _ ht)⟩
  | @declare ty rest d name table hn hm =>
    have hty := hp.faithful ty List.mem_cons_self
    refine ⟨hp.sound.of_declared hty hn hm, fun child hc => ?_⟩
    obtain ⟨rfl, -⟩ := meet_declared hm
    rcases List.mem_append.1 hc with hc | hc
    -- below the type its name is opened, and by now it is declared
    · refine (hty.of_named hn child hc).mono (List.cons_subset.2 ⟨?_, names_subset_declare⟩)
      exact mem_names_declare.2 (.inl rfl)
    · exact (hp.faithful child (List.mem_cons_of_mem _ hc)).mono names_subset_declare

theorem FaithfulSoFar.meet_ne_conflict {later : List Ty}
    (hp : FaithfulSoFar document ⟨ty :: later, d⟩) (hn : ty.name? = some name)
    (hc : name ∈ componentNames document) : meet replace name ty d ≠ .conflict := by
  intro hm
  obtain ⟨earlier, he, -, hs, hd⟩ := meet_conflict hm
  have hcomplete := (hp.faithful ty List.mem_cons_self).stub_or_complete hn hc
  have hty := hcomplete.resolve_left fun h => hs h.1
  exact hd ((hp.sound name hc earlier he).definition_eq hty)

end Walk

/-! ## Components among the declarations -/

section Components

variable {document version : Value} {routes : List Route}

theorem faithfulSoFar_start (hk : ValidKeys document)
    (h : (routesOf document version).result = .ok routes) :
    FaithfulSoFar document ⟨routes.flatMap Route.types, empty⟩ := by
  refine ⟨?_, fun ty ht => ?_⟩
  · intro name hc ty hg
    cases hg
  obtain ⟨position, id, kind, hkind, hc⟩ := converted_of_mem_types h ht
  have hs : Spaced (id.spelling ++ kind) := by
    refine spaced_append_right _ ?_
    rcases hkind with rfl | rfl <;> decide
  exact (faithful_of_convertAt hk hc grounded_nil hs).1

end Components

/-- **Components are declared completely.** If the routes of a document with valid keys can be read,
registering their types never stops at a component, and whatever component it declares has its
complete definition: a record has one member for every property of the schema that the name stands
for, in order and with what the entries of the property say, and may leave out those that are not
required, and a union has the cases that are listed. It is the definition of any reference to the
component converted from scratch, and a component with properties is not declared as a reference
back. -/
theorem components_declared_completely {document version : Value} {routes : List Route}
    (hk : ValidKeys document) (h : (routesOf document version).result = .ok routes)
    (replace : Bool) :
    (∀ name ∈ componentNames document, ofRoutes replace routes ≠ .error (.conflictingType name)) ∧
    ∀ d, ofRoutes replace routes = .ok d →
      ∀ name ∈ componentNames document, ∀ ty, d.get? name = some ty →
        Complete document name ty ∧
        (∀ schema, StandsFor document name schema → (schema.entry "properties").isTrue →
          ¬ ty.isStub) ∧
        ∀ position schema hint converted, Finds document position ⟨schema, some name⟩ →
          convertPosition document position hint = .ok converted →
            converted.definition = ty.definition := by
  have start := faithfulSoFar_start hk h
  have ends := ends_registerAll replace (routes.flatMap Route.types) empty
  refine ⟨?_, ?_⟩
  · intro name hc herror
    obtain ⟨_, heq, hw⟩ := ofRoutes_error herror
    cases heq
    obtain ⟨ty, later, hp, hn, hm⟩ := ends.invariant_of_conflict FaithfulSoFar.advances hw start
    exact hp.meet_ne_conflict hn hc hm
  · intro d hd name hc ty hg
    rw [ofRoutes_ok hd] at ends
    have complete := (ends.invariant FaithfulSoFar.advances rfl start).sound name hc ty hg
    refine ⟨complete, fun schema hs hp => complete.not_isStub hs hp, ?_⟩
    intro position schema hint converted hf hconverted
    exact (complete_of_convertPosition hk complete hf hconverted).definition_eq complete

/-! ## A tree of nodes -/

def colorSchema : Value := .mapping
  [(.text "type", .text "string"), (.text "enum", .list [.text "red", .int 2])]

/-- The color of a node, with a description beside the reference. -/
def colorProperty : Value := .mapping
  [(.text "$ref", .text "#/components/schemas/Color"), (.text "description", .text "Shade")]

/-- A record that must have a color and holds an array of itself, where the array is a component
too. -/
def coloredNodeSchema : Value := .mapping
  [(.text "type", .text "object"), (.text "required", .list [.text "color"]),
    (.text "properties", .mapping
      [(.text "color", colorProperty), (.text "children", referenceTo "NodeList")])]

/-- The component table with the color, the node and the array of nodes. -/
def coloredComponents : Value := .mapping [(.text "schemas", .mapping
  [(.text "Color", colorSchema), (.text "Node", coloredNodeSchema),
    (.text "NodeList", nodeListSchema)])]

def treeBody : Value := .mapping
  [(.text "content", .mapping
    [(.text jsonMediaType, .mapping [(.text "schema", referenceTo "NodeList")])])]

/-- An operation that responds with the array of nodes. -/
def treeOperation : Value := .mapping
  [(.text "operationId", .text "getTree"),
    (.text "responses", .mapping [(.text "default", treeBody)])]

/-- A document with one operation, whose response runs through the components in a circle. -/
def treeApi : Value := .mapping
  [(.text "paths", .mapping [(.text "/tree", .mapping [(.text "get", treeOperation)])]),
    (.text "components", coloredComponents)]

def colorType : Ty := .union "Color" ["red", "2"]

/-- The node, with references back to it in the array of its children. -/
def nodeType : Ty := .record "Node"
  [⟨"color", some "Shade", colorType, false⟩,
    ⟨"children", none, .array (.record "Node" []), true⟩]

def treeRoute : Route :=
  ⟨"getTree", none, .get, "/tree", "/tree", "", [], none, some (.array nodeType)⟩

theorem bodyType?_treeBody : (bodyType? treeApi treeBody "getTree response").result =
    .ok (some (.array nodeType)) := by
  have hr : resolve treeApi (referenceTo "NodeList") =
      .ok (some ⟨nodeListSchema, some "NodeList"⟩) := rfl
  have hwithin : convertWithin treeApi 4 [] (referenceTo "NodeList") "getTree response" =
      reached (.ok (.array nodeType)) := rfl
  have hc := convertPosition_of_reached hwithin
  rw [convertPosition, ← convert_eq_convertAt hr] at hc
  show (bodyType treeApi treeBody "getTree response").result = _
  iterate 3 refine Reading.bind_result_eq_ok.2 ⟨_, rfl, ?_⟩
  refine Reading.bind_result_eq_ok.2 ⟨_, hr, ?_⟩
  exact Reading.bind_result_eq_ok.2 ⟨_, hc, rfl⟩

theorem routeOfOperation_treeOperation :
    (routeOfOperation treeApi (.text "/tree") "get" treeOperation .null (.text "")).result =
      .ok treeRoute := by
  iterate 9 refine Reading.bind_result_eq_ok.2 ⟨_, rfl, ?_⟩
  refine Reading.bind_result_eq_ok.2 ⟨treeBody, rfl, ?_⟩
  exact Reading.bind_result_eq_ok.2 ⟨_, bodyType?_treeBody, rfl⟩

theorem routesOf_treeApi : (routesOf treeApi (.text "")).result = .ok [treeRoute] := by
  iterate 2 refine Reading.bind_result_eq_ok.2 ⟨_, rfl, ?_⟩
  refine Reading.bind_result_eq_ok.2 ⟨[[treeRoute]], ?_, rfl⟩
  refine Reading.bind_result_eq_ok.2 ⟨[treeRoute], ?_, rfl⟩
  show (routesOfPath treeApi (.text "/tree") (.mapping [(.text "get", treeOperation)])
    (.text "")).result = _
  refine Reading.bind_result_eq_ok.2 ⟨_, rfl, ?_⟩
  exact Reading.bind_result_eq_ok.2 ⟨treeRoute, routeOfOperation_treeOperation, rfl⟩

theorem validKeys_treeApi : ValidKeys treeApi := by
  have hnames : componentNames treeApi = ["Color", "Node", "NodeList"] := rfl
  rw [ValidKeys, hnames]
  decide

/-- The node is declared with its color and its children, although it is met again below itself, and
the color with its cases. -/
theorem node_declared_completely : ∃ d, ofRoutes false [treeRoute] = .ok d ∧
    d.get? "Node" = some nodeType ∧ d.get? "Color" = some colorType ∧
    Complete treeApi "Node" nodeType ∧ Complete treeApi "Color" colorType ∧
    ¬ nodeType.isStub := by
  have hm : "Node" ∈ componentNames treeApi := List.mem_of_getElem? (i := 1) rfl
  have hc : "Color" ∈ componentNames treeApi := List.mem_of_getElem? (i := 0) rfl
  have hd : ofRoutes false [treeRoute] =
      .ok ⟨[("Node", nodeType), ("Color", colorType)]⟩ := rfl
  obtain ⟨-, hdeclared⟩ := components_declared_completely validKeys_treeApi routesOf_treeApi false
  obtain ⟨hnode, hnostub, -⟩ := hdeclared _ hd "Node" hm nodeType rfl
  obtain ⟨hcolor, -, -⟩ := hdeclared _ hd "Color" hc colorType rfl
  have hstands : StandsFor treeApi "Node" coloredNodeSchema :=
    ⟨_, "Node", _, rfl, .refl, ⟨rfl, rfl⟩, rfl⟩
  exact ⟨_, hd, rfl, rfl, hnode, hcolor, hnostub _ hstands rfl⟩

end ApiBindings.OpenApi
