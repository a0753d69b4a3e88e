import QueryPlanner.View

/-!
# Sessions

What a statement is planned against: a catalog, the schema of unqualified names, and views.
-/

namespace QueryPlanner

/-- The state in which a statement is planned. -/
structure Session where
  catalog : Catalog
  /-- The schema of tables that are named without one. -/
  defaultSchema : String
  views : Views := .empty

/-- The default schema of sessions that choose none. -/
def Session.standardSchema : String := "test"

end QueryPlanner
