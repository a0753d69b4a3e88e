import QueryPlanner.Bound.Expr
import QueryPlanner.Catalog.Table

/-!
# Bound queries

Queries in which every table, view and column has been found.  A source that stands for a view
holds the bound query of that view.
-/

namespace QueryPlanner

/-- A column as a source shows it to a query. -/
structure SourceColumn where
  name : String
  type : Option DataType
  collation : Option CollationId
  deriving DecidableEq

/-- A named result of a query. -/
structure ResultItem where
  expr : BoundExpr
  name : String

/-- A term of the sort order of a bound query. -/
structure BoundOrderItem where
  expr : BoundExpr
  descending : Bool

mutual

/-- What a source reads. -/
inductive SourceOrigin where
  | table (table : Table)
  | view (name : String) (query : BoundSelect)

/-- A source of a query with the columns it shows. -/
structure BoundSource where
  /-- The name that column references use for the source. -/
  aliasName : String
  origin : SourceOrigin
  columns : List SourceColumn

/-- A query whose names have been found. -/
structure BoundSelect where
  sources : List BoundSource
  results : List ResultItem
  predicate : Option BoundExpr
  order : List BoundOrderItem
  offset : Option UInt64
  limit : Option UInt64

end

/-- A column of a table as a source shows it. -/
def Column.shown (c : Column) : SourceColumn :=
  { name := c.name, type := some c.type, collation := c.collation }

namespace BoundSource

/-- A source that reads a table, under the name of the table unless another one is given. -/
def ofTable (t : Table) (aliasName : Option String) : BoundSource :=
  { aliasName := aliasName.getD t.name.table, origin := .table t,
    columns := t.columns.map Column.shown }

/-- The reference to a column of the source, which has the number `source` in its scope. -/
def reference (s : BoundSource) (source : Nat) (column : SourceColumn × Nat) : BoundColumn :=
  { source, qualifier := s.aliasName, position := column.2, name := column.1.name,
    type := column.1.type, collation := column.1.collation }

/-- References to all columns of the source. -/
def references (s : BoundSource) (source : Nat) : List BoundColumn :=
  s.columns.zipIdx.map (s.reference source)

/-- The reference to the first column that answers to a name. -/
def find? (s : BoundSource) (source : Nat) (name : String) : Option BoundColumn :=
  (s.columns.zipIdx.find? fun (c, _) => Text.sameLetters c.name name).map (s.reference source)

end BoundSource

/-! ## Scopes -/

/-- The sources that the column references of an expression may mean. -/
abbrev Scope := List BoundSource

namespace Scope

/-- The first source that goes by a name, with its number. -/
def source? (scope : Scope) (name : String) : Option (BoundSource × Nat) :=
  scope.zipIdx.find? fun (s, _) => Text.sameLetters s.aliasName name

/-- References to the columns that answer to a name, one for each source that has some. -/
def candidates (scope : Scope) (name : String) : List BoundColumn :=
  scope.zipIdx.filterMap fun (s, number) => s.find? number name

/-- References to all columns of all sources. -/
def references (scope : Scope) : List BoundColumn :=
  scope.zipIdx.flatMap fun (s, number) => s.references number

end Scope

end QueryPlanner
