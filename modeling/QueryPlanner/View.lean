import QueryPlanner.Catalog.Basic
import QueryPlanner.Statement.Basic

/-!
# Views

A view is a named query without parameters.  A session keeps its views under the lowercase forms of
their names.
-/

namespace QueryPlanner

/-- A named query. -/
structure View where
  name : String
  /-- Names for the results of the query; none of them if they keep their own. -/
  columns : List String
  query : Select
  parameterFree : query.parameterCount = 0

instance : Named View := ⟨View.name⟩

/-- The view that a query defines, which must have no parameters. -/
def View.ofSelect (name : String) (columns : List String) (query : Select) :
    Except CatalogError View :=
  if h : query.parameterCount = 0 then .ok { name, columns, query, parameterFree := h }
  else .error (.parameterizedView name)

/-- The views of a session. -/
abbrev Views := Directory View

namespace Views

/-- Adds a view under a new name. -/
def add (views : Views) (view : View) : Except CatalogError Views :=
  if views.contains view.name then .error (.duplicateView view.name)
  else .ok (views.insert view)

/-- Takes a view out. -/
def remove (views : Views) (name : String) : Except CatalogError Views :=
  if views.contains name then .ok (views.erase name) else .error (.unknownView name)

end Views

end QueryPlanner
