import ApiBindings.ApiDoc.Routes
import ApiBindings.OpenApi.Routes
import ApiBindings.Settings
import ApiBindings.Source.Client

/-!
# From a document to a client

The format of a document decides how its routes are read. The routes give the declarations and the
versions, and from these the source text is made. The language is looked up first.
-/

namespace ApiBindings

open OpenApi (Reading)

inductive DocumentKind where
  | openApi
  | apiDoc
  deriving DecidableEq, Repr

namespace DocumentKind

def name : DocumentKind → String
  | openApi => "openapi"
  | apiDoc => "apidoc"

/-- Whether a value looks like an entry of apiDoc data. -/
def isApiDocEntry : Value → Bool
  | .mapping entries =>
    (Value.valueAt? (.text "url") entries).isSome && (Value.valueAt? (.text "type") entries).isSome
  | _ => false

/-- The kind that a document shows. -/
def ofDocument : Value → Except Fault DocumentKind
  | .mapping entries =>
    if (Value.valueAt? (.text "openapi") entries).isSome then .ok openApi
    else if (Value.valueAt? (.text "swagger") entries).isSome then .error .obsoleteDocument
    else .error .unknownDocument
  | .list entries => if entries.all isApiDocEntry then .ok apiDoc else .error .unknownDocument
  | _ => .error .unknownDocument

/-- The kind that a format stands for. -/
def ofFormat (document : Value) (format : String) : Except Fault DocumentKind :=
  if format = "auto" then ofDocument document
  else if format = openApi.name then .ok openApi
  else if format = apiDoc.name then .ok apiDoc
  else .error (.unknownFormat format)

end DocumentKind

def routesOfDocument (document : Value) (format : String) (apiVersion : Value) :
    Reading (List Route) := do
  match ← (DocumentKind.ofFormat document format : Except Fault DocumentKind) with
  | .openApi =>
    if document.isMapping then OpenApi.routesOf document (apiVersion.orElse (.text ""))
    else Reading.ofExcept (.error .documentNotMapping)
  | .apiDoc =>
    match document with
    | .list entries => Reading.ofExcept (ApiDoc.routesOf entries)
    | _ => Reading.ofExcept (.error .documentNotList)

/-- The version label of some settings as a value, null if there is none. -/
def Settings.versionValue (s : Settings) : Value := (s.apiVersion.map Value.text).getD .null

/-- All that a client is made from. -/
structure Model where
  routes : List Route
  declarations : Declarations
  versions : List Version

def Model.ofDocument (document : Value) (settings : Settings) : Reading Model := do
  let routes ← routesOfDocument document settings.format settings.versionValue
  let declarations ← Declarations.ofRoutes settings.allowRedefinition routes
  return ⟨routes, declarations, versionsOf routes⟩

/-- The source text of the client of a document. -/
def clientOf (document : Value) (settings : Settings) : Reading String := do
  let language ← Source.Language.ofText settings.language
  let model ← Model.ofDocument document settings
  return Source.client language model.declarations model.versions

end ApiBindings
