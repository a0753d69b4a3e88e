import QueryPlanner.Catalog.Basic

/-!
# Changes to a catalog

The declarations that statements and snapshots make, and their effect on a catalog.  A declared
column names its collation, which has to be a registered one and to stand on a column of texts.
-/

namespace QueryPlanner

/-- The declaration of a column. -/
structure ColumnDefinition where
  name : String
  type : DataType
  nullable : Bool := true
  collation : Option String := none
  deriving DecidableEq

namespace ColumnDefinition

/-- The column that a definition declares. -/
def column (d : ColumnDefinition) : Except CatalogError Column :=
  let column : Column := { name := d.name, type := d.type, nullable := d.nullable }
  match d.collation with
  | none => .ok column
  | some name =>
      if d.type.isString then
        match Collation.ofName name with
        | .ok c => .ok { column with collation := some c.id }
        | .error _ => .error (.malformed (.unknownCollation name))
      else .error (.malformed (.collationOn d.name d.type))

end ColumnDefinition

/-- A change to schemas, tables or indexes. -/
inductive Change where
  | createSchema (name : String)
  | dropSchema (name : String)
  | createTable (name : TableName) (columns : List ColumnDefinition)
  | dropTable (name : TableName)
  | createIndex (table : TableName) (name : String) (columns : List String) (unique : Bool)
  | dropIndex (table : TableName) (name : String)
  deriving DecidableEq

namespace Change

/-- Whether carrying a change out looks a collation up.  Columns are read in order, and the first
one with a collation decides: it is looked up, or the change is refused because of its type. -/
def looksUpCollation : Change → Bool
  | .createTable _ columns =>
      match columns.find? (·.collation.isSome) with
      | some d => d.type.isString
      | none => false
  | _ => false

end Change

/-- Carries a change out. -/
def Catalog.apply (c : Catalog) : Change → Except CatalogError Catalog
  | .createSchema name => c.createSchema name
  | .dropSchema name => c.dropSchema name
  | .createTable name definitions => do
      let columns ← definitions.mapM ColumnDefinition.column
      c.createTable name columns
  | .dropTable name => c.dropTable name
  | .createIndex table name columns unique => c.createIndex table name columns unique
  | .dropIndex table name => c.dropIndex table name

end QueryPlanner
