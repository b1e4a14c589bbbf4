import ApiBindings.Route

/-!
# Parameters of an operation

An operation has the parameters of its path and its own. A parameter is known by its name and its
location; an operation's own parameter takes the place of the path's parameter of that name and
location. Only parameters located in the path become parameters of the URL, all of them texts.
References to parameters are left out.
-/

namespace ApiBindings.OpenApi

/-- A parameter is known by its name and its location. -/
abbrev ParameterKey := Scalar × Scalar

/-- Adds a parameter to the table of parameters, unless it is a reference. -/
def addParameter (table : List (ParameterKey × Value)) (parameter : Value) :
    Except Fault (List (ParameterKey × Value)) := do
  if ← parameter.mentions "$ref" then return table
  else
    let name ← parameter.get "name"
    let location ← parameter.get "in"
    return Table.put (← name.asKey, ← location.asKey) parameter table

/-- The URL parameter that a parameter is, if it is located in the path. -/
def urlParameter? (parameter : Value) : Except Fault (Option UrlParameter) := do
  if (← parameter.get "in").isText "path" then
    let name ← ((← parameter.item "name").checkText.under (.field "name")).toExcept
    return some ⟨name, .string⟩
  else return none

/-- The URL parameters of an operation, from the parameters of its path and its own. -/
def urlParameters (shared own : Value) : Except Fault (List UrlParameter) := do
  let shared ← (shared.orElse (.list [])).elements
  let own ← (own.orElse (.list [])).elements
  let table ← (shared ++ own).foldlM addParameter []
  return (← table.mapM fun e => urlParameter? e.2).filterMap id

end ApiBindings.OpenApi
