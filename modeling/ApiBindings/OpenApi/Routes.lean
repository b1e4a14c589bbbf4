import ApiBindings.OpenApi.Parameters
import ApiBindings.OpenApi.Warning
import ApiBindings.Schema.Convert

/-!
# Routes of an OpenAPI document

Every operation of every path becomes a route, path by path in the order of the document and inside
a path in the order get, post, put, patch, delete. A path that is a reference is passed over with a
warning. The types of the payload and of the response come from the JSON schemas of their bodies; a
body without one has no type, and neither has one whose schema is a reference that leads nowhere,
which is warned about.
-/

namespace ApiBindings.OpenApi

def jsonMediaType : String := "application/json"

/-- A path template with a colon before the name of a parameter in place of the braces around it. -/
def urlTemplate (path : String) : String :=
  String.ofList <| path.toList.flatMap fun c =>
    if c == '{' then [':'] else if c == '}' then [] else [c]

/-- The type of a body by its JSON schema. -/
def bodyType (document body : Value) (place : String) : Reading (Option Ty) := do
  let content ← body.get "content"
  let media ← (content.orElse (.mapping [])).get jsonMediaType
  if media.isNull then return none
  else
    let schema ← media.get "schema"
    if schema.isNull then return none
    else
      match ← (Schema.resolve document schema : Except Fault (Option Schema.Resolved)) with
      | none =>
        let reference ← schema.get "$ref"
        Reading.warn (.unresolvedBody place reference.spelling)
        return none
      | some r => return some (← Schema.convert document r place)

/-- The type of a body that may be absent or a reference, which both leave it without a type. -/
def bodyType? (document body : Value) (place : String) : Reading (Option Ty) := do
  if body.isNull then return none
  else if ← body.mentions "$ref" then return none
  else bodyType document body place

/-- The response that a client is given: the default one, else the one for success. -/
def selectedResponse (operation : Value) : Except Fault Value := do
  let responses ← (((← operation.get "responses").orElse (.mapping []))).entries
  let standard := Schema.field "default" responses
  if standard.isNull then
    return (Value.valueAt? (.text "200") responses).getD
      ((Value.valueAt? (.int 200) responses).getD .null)
  else return standard

/-- The identifier of an operation, which must not be blank. -/
def operationId (path : Value) (method : String) (operation : Value) : Except Fault Value := do
  let id ← operation.get "operationId"
  if !id.isTrue || Text.isBlankText id.spelling then
    .error (.missingOperationId path.spelling (Text.upperText method))
  else return id

def routeOfOperation (document path : Value) (method : String) (operation shared version : Value) :
    Reading Route := do
  let id ← operationId path method operation
  let summary ← operation.get "summary"
  let description ← operation.get "description"
  let parsedMethod ← Method.parse (.text method)
  let pathText ← path.asText
  let parameters ← urlParameters shared (← operation.get "parameters")
  let payload ← bodyType? document (← operation.get "requestBody") (id.spelling ++ " payload")
  let response ← bodyType? document (← selectedResponse operation) (id.spelling ++ " response")
  let draft : RouteDraft := {
    name := id
    description := summary.orElse description
    method := parsedMethod
    url := urlTemplate pathText
    group := .text pathText
    version := version
    urlParameters := parameters
    payload := payload
    response := response
  }
  draft.check

/-- The methods of a path that have an operation, in order, with their operations. -/
def operationsOf (item : List (Scalar × Value)) : List (Method × Value) :=
  Method.all.filterMap fun m =>
    let operation := Schema.field m.keyword item
    if operation.isNull then none else some (m, operation)

def routesOfPath (document path item version : Value) : Reading (List Route) := do
  let entries ← item.entries
  let shared := Schema.field "parameters" entries
  (operationsOf entries).mapM fun (m, operation) =>
    routeOfOperation document path m.keyword operation shared version

/-- The routes of a path, unless it is a reference. -/
def routesOfItem (document path item version : Value) : Reading (List Route) := do
  if ← item.mentions "$ref" then
    Reading.warn (.pathReference path.spelling)
    return []
  else routesOfPath document path item version

def routesOf (document version : Value) : Reading (List Route) := do
  let paths ← ((← document.get "paths").orElse (.mapping [])).entries
  let routes ← paths.mapM fun (path, item) => routesOfItem document (.scalar path) item version
  return routes.flatten

end ApiBindings.OpenApi
