import ApiBindings.Route

/-!
# Versions and resources

The routes of an API are grouped by version and, inside a version, by group. Versions and groups
appear in the order in which the routes first name them, and the routes of a group keep their order.
-/

namespace ApiBindings

/-- The routes of one group of one version. -/
structure Resource where
  name : String
  routes : List Route

/-- The resources of one version. -/
structure Version where
  label : String
  resources : List Resource

/-- Adds an item to the items under a key. -/
def appendUnder {α : Type} (key : String) (item : α) (groups : List (String × List α)) :
    List (String × List α) :=
  Table.update key (fun items => items.getD [] ++ [item]) groups

/-- The items of a list under their keys; keys and items stay in order. -/
def groupedBy {α : Type} (key : α → String) (items : List α) : List (String × List α) :=
  items.foldl (fun groups item => appendUnder (key item) item groups) []

/-- The versions that a list of routes makes up. -/
def versionsOf (routes : List Route) : List Version :=
  (groupedBy Route.version routes).map fun (label, routes) =>
    ⟨label, (groupedBy Route.group routes).map fun (name, routes) => ⟨name, routes⟩⟩

end ApiBindings
