import ApiBindings.ApiDoc.Record
import ApiBindings.Route

/-!
# Routes of apiDoc data

Every entry of the data becomes a route. The segments of its URL that start with a colon are its URL
parameters; the other parameters make up the payload of a method that sends one. A name that occurs
with several versions stands for several routes, whose types then carry the version in their names.
-/

namespace ApiBindings.ApiDoc

def sendsPayload : Method → Bool
  | .post | .put | .patch => true
  | .get | .delete => false

/-- The names in the parts of a URL that start with a colon, in order. -/
def markedNames (url : String) : List String :=
  ((Text.split '/' url.toList).filter fun part => part.head? == some ':').map fun part =>
    String.ofList part.tail

/-- The value under a key of an entry, the empty text if there is none. -/
def labelOf (key : String) (entry : List (Scalar × Value)) : Value :=
  (Value.valueAt? (.text key) entry).getD (.text "")

/-- The fields of a section, over all its groups. -/
def sectionFields (part : Value) : Except Fault (List Value) := do
  if !part.isTrue then return []
  else
    let groups ← ((← part.get "fields").orElse (.mapping [])).entries
    return (← groups.mapM fun g => g.2.elements).flatten

/-- The fields by their names, the last of each name. -/
def fieldsByName (fields : List Value) : Except Fault (List (Scalar × Value)) :=
  fields.foldlM
    (fun table field => do return Table.put (← (← field.get "field").asKey) field table) []

/-- The type of a URL parameter: that of the field of its name if a primitive, and else a text. -/
def urlParameterType (field : Option Value) : Except Fault Primitive :=
  match field with
  | none => .ok .string
  | some field => do
    let declaration ← field.entries
    let raw ← writtenType declaration
    let written := FieldType.parse raw
    if written.base = objectType || written.isArray then return .string
    else primitiveOf written.base raw declaration

/-- The payload of a method that sends one: the record of the fields that are not named like a URL
parameter. -/
def payloadOf (name : String) (method : Method) (urlNames : List String) (fields : List Value) :
    Except Fault (Option Ty) :=
  if sendsPayload method then do
    let kept ← fields.filterM fun field => do
      let fieldName ← field.get "field"
      return !urlNames.any fieldName.isText
    recordOf name kept
  else .ok none

/-- The route of an entry; `versioned` tells whether its types carry the version. -/
def routeOfEntry (entry : Value) (versioned : Bool) : Except Fault Route := do
  let entry ← entry.entries
  let name := labelOf "name" entry
  let version := labelOf "version" entry
  let method ← Method.parse (labelOf "type" entry)
  let typeName :=
    if versioned && version.isTrue then name.spelling ++ " " ++ version.spelling
    else name.spelling
  let parameterFields ← sectionFields (property "parameter" entry)
  let successFields ← sectionFields (property "success" entry)
  let url ← (labelOf "url" entry).asText
  let urlNames := markedNames url
  let byName ← fieldsByName parameterFields
  let parameters ← urlNames.mapM fun urlName => do
    return (⟨urlName, ← urlParameterType (Value.valueAt? (.text urlName) byName)⟩ : UrlParameter)
  let payload ← payloadOf (typeName ++ " payload") method urlNames parameterFields
  let title ← ((property "title" entry).orElse (.text "")).asSubject
  let response ← recordOf (typeName ++ " response") successFields
  let draft : RouteDraft := {
    name := name
    description := .text (Text.cleanMarkup title)
    method := method
    url := url
    group := labelOf "group" entry
    version := version
    urlParameters := parameters
    payload := payload
    response := response
  }
  draft.check

def addVersion (table : List (Scalar × List Scalar)) (entry : Value) :
    Except Fault (List (Scalar × List Scalar)) := do
  let entry ← entry.entries
  let name ← (labelOf "name" entry).asKey
  let version ← (labelOf "version" entry).asKey
  return Table.update name
    (fun versions =>
      let versions := versions.getD []
      if versions.contains version then versions else versions ++ [version])
    table

/-- Whether a name occurs with more than one version. -/
def hasSeveralVersions (table : List (Scalar × List Scalar)) (entry : Value) : Bool :=
  match entry with
  | .mapping es =>
    match labelOf "name" es with
    | .scalar name => ((table.lookup name).getD []).length > 1
    | _ => false
  | _ => false

def routesOf (entries : List Value) : Except Fault (List Route) := do
  let versions ← entries.foldlM addVersion []
  entries.mapM fun entry => routeOfEntry entry (hasSeveralVersions versions entry)

end ApiBindings.ApiDoc
