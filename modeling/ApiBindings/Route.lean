import ApiBindings.Checked
import ApiBindings.Document.Access
import ApiBindings.Document.Spelling
import ApiBindings.Text.Blank
import ApiBindings.Text.LetterCase
import ApiBindings.Text.Split
import ApiBindings.Ty

/-!
# Routes

A route is one function of a client: one method on one URL template. In the template a segment that
starts with a colon stands for a parameter. A route belongs to a version and, inside it, to a group.
Its name is never blank, and a blank description counts as none.
-/

namespace ApiBindings

inductive Method where
  | get
  | post
  | put
  | patch
  | delete
  deriving DecidableEq, Repr

namespace Method

def all : List Method := [get, post, put, patch, delete]

def name : Method → String
  | get => "GET"
  | post => "POST"
  | put => "PUT"
  | patch => "PATCH"
  | delete => "DELETE"

def keyword : Method → String
  | get => "get"
  | post => "post"
  | put => "put"
  | patch => "patch"
  | delete => "delete"

/-- The method of a name in capitals. -/
def ofName? (name : String) : Option Method := all.find? fun m => m.name == name

/-- The method that a text names in any letter case. -/
def parse (value : Value) : Except Fault Method := do
  let text ← value.asText
  match ofName? (Text.upperText text) with
  | some m => .ok m
  | none => .error (.unsupportedMethod text)

@[simp] theorem ofName?_name (m : Method) : ofName? m.name = some m := by cases m <;> rfl

@[simp] theorem parse_keyword (m : Method) : parse (.text m.keyword) = .ok m := by cases m <;> rfl

end Method

/-- A parameter in a URL; only a primitive fits there. -/
structure UrlParameter where
  name : String
  ty : Primitive
  deriving DecidableEq, Repr

inductive Segment where
  | literal (value : String)
  | parameter (name : String)
  deriving DecidableEq, Repr

namespace Segment

/-- The segment that a part of a template is. -/
def ofPart : List Char → Segment
  | ':' :: name => parameter (String.ofList name)
  | part => literal (String.ofList part)

/-- The segments of a URL template, in order; a leading slash has an empty literal before it. -/
def ofUrl (url : String) : List Segment := (Text.split '/' url.toList).map ofPart

/-- The name of the parameter that a segment stands for. -/
def parameter? : Segment → Option String
  | parameter name => some name
  | literal _ => none

theorem ofPart_eq_parameter_iff {part : List Char} {name : String} :
    ofPart part = parameter name ↔ part = ':' :: name.toList := by
  constructor
  · intro h
    unfold ofPart at h
    split at h
    · obtain rfl := parameter.inj h
      rw [String.toList_ofList]
    · cases h
  · rintro rfl
    rw [ofPart, String.ofList_toList]

end Segment

/-- One function of a client. -/
structure Route where
  name : String
  description : Option String
  method : Method
  url : String
  group : String
  version : String
  urlParameters : List UrlParameter
  payload : Option Ty
  response : Option Ty

namespace Route

def segments (r : Route) : List Segment := Segment.ofUrl r.url

/-- All parameters of the function: those of the URL in order, then the payload. -/
def parameters (r : Route) : List (String × Ty) :=
  (r.urlParameters.map fun p => (p.name, Ty.primitive p.ty)) ++
    (r.payload.map fun ty => ("payload", ty)).toList

/-- The types that a route uses: its payload, then its response. -/
def types (r : Route) : List Ty := r.payload.toList ++ r.response.toList

end Route

/-- A name that is not blank. -/
def Value.checkRouteName (v : Value) : Checked String :=
  match v with
  | .text s => if Text.isBlankText s then .flaw .blank else .valid s
  | _ => .flaw .notText

/-- A description, none if it is blank. -/
def Value.checkDescription (v : Value) : Checked (Option String) :=
  (fun d => d.filter fun s => !Text.isBlankText s) <$> v.checkOptionalText

/-- A route whose labels come unchecked from a document. -/
structure RouteDraft where
  name : Value
  description : Value
  method : Method
  url : String
  group : Value
  version : Value
  urlParameters : List UrlParameter
  payload : Option Ty
  response : Option Ty

/-- The route of a draft whose labels are all texts. -/
def RouteDraft.check (d : RouteDraft) : Except Fault Route :=
  Checked.toExcept <|
    (fun name description group version =>
        (⟨name, description, d.method, d.url, group, version, d.urlParameters, d.payload,
          d.response⟩ : Route)) <$>
      d.name.checkRouteName.under (.field "name") <*>
      d.description.checkDescription.under (.field "description") <*>
      d.group.checkText.under (.field "group") <*>
      d.version.checkText.under (.field "version")

theorem Value.eq_of_checkText {v : Value} {s : String} (h : v.checkText = .valid s) :
    v = .text s := by
  unfold checkText at h
  split at h
  · cases h
    rfl
  · cases h

theorem Value.eq_of_checkRouteName {v : Value} {s : String} (h : v.checkRouteName = .valid s) :
    v = .text s := by
  unfold checkRouteName at h
  split at h
  · split at h
    · cases h
    · cases h
      rfl
  · cases h

theorem Value.eq_of_checkDescription {v : Value} {s : String}
    (h : v.checkDescription = .valid (some s)) : v = .text s := by
  obtain ⟨description, hv, hs⟩ := Checked.map_eq_valid h
  obtain rfl := Option.eq_some_of_filter_eq_some hs.symm
  unfold checkOptionalText at hv
  split at hv
  · cases hv
    rfl
  · cases hv
  · cases hv

/-- A route has the checked labels of its draft, and all the rest of the draft as it is. -/
theorem RouteDraft.check_ok {draft : RouteDraft} {route : Route} (h : draft.check = .ok route) :
    draft.name.checkRouteName = .valid route.name ∧ draft.version.checkText = .valid route.version ∧
      draft.description.checkDescription = .valid route.description ∧
      draft.group.checkText = .valid route.group ∧
      route = ⟨route.name, route.description, draft.method, draft.url, route.group,
        route.version, draft.urlParameters, draft.payload, draft.response⟩ := by
  have hvalid := Checked.toExcept_eq_ok h
  obtain ⟨_, version, hthree, hversion, hroute⟩ := Checked.seq_eq_valid hvalid
  obtain ⟨_, group, htwo, hgroup, rfl⟩ := Checked.seq_eq_valid hthree
  obtain ⟨_, description, hone, hdescription, rfl⟩ := Checked.seq_eq_valid htwo
  obtain ⟨name, hname, rfl⟩ := Checked.map_eq_valid hone
  subst hroute
  exact ⟨Checked.under_eq_valid hname, Checked.under_eq_valid hversion,
    Checked.under_eq_valid hdescription, Checked.under_eq_valid hgroup, rfl⟩

theorem RouteDraft.of_check {draft : RouteDraft} {route : Route} (h : draft.check = .ok route) :
    draft.name = .text route.name ∧ draft.version = .text route.version ∧
      route.payload = draft.payload ∧ route.response = draft.response := by
  obtain ⟨hname, hversion, -, -, hroute⟩ := RouteDraft.check_ok h
  refine ⟨Value.eq_of_checkRouteName hname, Value.eq_of_checkText hversion, ?_⟩
  rw [hroute]
  exact ⟨rfl, rfl⟩

theorem RouteDraft.url_of_check {draft : RouteDraft} {route : Route} (h : draft.check = .ok route) :
    route.method = draft.method ∧ route.url = draft.url ∧
      route.urlParameters = draft.urlParameters := by
  obtain ⟨-, -, -, -, hroute⟩ := RouteDraft.check_ok h
  rw [hroute]
  exact ⟨rfl, rfl, rfl⟩

theorem RouteDraft.group_of_check {draft : RouteDraft} {route : Route}
    (h : draft.check = .ok route) : draft.group = .text route.group := by
  obtain ⟨-, -, -, hgroup, -⟩ := RouteDraft.check_ok h
  exact Value.eq_of_checkText hgroup

end ApiBindings
