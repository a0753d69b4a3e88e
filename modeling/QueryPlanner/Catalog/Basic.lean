import QueryPlanner.Catalog.Error
import QueryPlanner.Catalog.Table

/-!
# The catalog

Schemas, their tables and the indexes of these.  A catalog is a value: every change gives a new
catalog or an error, and whoever holds the old one keeps it.
-/

namespace QueryPlanner

/-- A schema and its tables. -/
structure Schema where
  name : String
  tables : Directory Table := .empty

instance : Named Schema := ⟨Schema.name⟩

/-- Schemas by name. -/
structure Catalog where
  schemas : Directory Schema := .empty

namespace Catalog

/-- The catalog without schemas. -/
def empty : Catalog := {}

/-! ## Looking things up -/

def hasSchema (c : Catalog) (schema : String) : Bool := c.schemas.contains schema

/-- The table with a name. -/
def table? (c : Catalog) (name : TableName) : Option Table :=
  (c.schemas.find? name.schema).bind fun s => s.tables.find? name.table

/-- Every table, by schema and then by table. -/
def tables (c : Catalog) : List Table := c.schemas.items.flatMap fun s => s.tables.items

/-! ## Schemas -/

/-- Adds a schema without tables. -/
def createSchema (c : Catalog) (name : String) : Except CatalogError Catalog :=
  if c.schemas.contains name then .error (.duplicateSchema name)
  else .ok { c with schemas := c.schemas.insert { name } }

/-- Takes out a schema, which must have no tables. -/
def dropSchema (c : Catalog) (name : String) : Except CatalogError Catalog :=
  match c.schemas.find? name with
  | none => .error (.unknownSchema name)
  | some schema =>
      if schema.tables.isEmpty then .ok { c with schemas := c.schemas.erase name }
      else .error (.schemaNotEmpty schema.name)

/-! ## Tables -/

/-- The first column whose name an earlier one has. -/
def repeatedColumn? (earlier : List Column) : List Column → Option Column
  | [] => none
  | c :: rest =>
      if earlier.any fun e => Text.sameLetters e.name c.name then some c
      else repeatedColumn? (earlier ++ [c]) rest

/-- The catalog with other tables in one of its schemas. -/
def withTables (c : Catalog) (schema : Schema) (tables : Directory Table) : Catalog :=
  { c with schemas := c.schemas.insert { schema with tables } }

/-- Adds a table without indexes.  Its name carries the declared spelling of the schema. -/
def createTable (c : Catalog) (name : TableName) (columns : List Column) :
    Except CatalogError Catalog :=
  match c.schemas.find? name.schema with
  | none => .error (.unknownSchema name.schema)
  | some schema =>
      if schema.tables.contains name.table then .error (.duplicateTable name.text)
      else
        match repeatedColumn? [] columns with
        | some column => .error (.duplicateColumn name.text column.name)
        | none =>
            let table : Table := { name := ⟨schema.name, name.table⟩, columns }
            .ok (c.withTables schema (schema.tables.insert table))

/-- Takes out a table. -/
def dropTable (c : Catalog) (name : TableName) : Except CatalogError Catalog :=
  match c.schemas.find? name.schema with
  | none => .error (.unknownSchema name.schema)
  | some schema =>
      if schema.tables.contains name.table then
        .ok (c.withTables schema (schema.tables.erase name.table))
      else .error (.unknownTable name.text)

/-! ## Indexes -/

/-- The schema and the table with a name. -/
def locate (c : Catalog) (name : TableName) : Except CatalogError (Schema × Table) :=
  match c.schemas.find? name.schema with
  | none => .error (.unknownSchema name.schema)
  | some schema =>
      match schema.tables.find? name.table with
      | none => .error (.unknownTable name.text)
      | some table => .ok (schema, table)

/-- The index field at a position, over a column of a table. -/
def indexField (table : Table) (column : String) (position : Nat) :
    Except CatalogError IndexField :=
  match table.column? column with
  | none => .error (.unknownColumn table.name.text column)
  | some (columnPosition, c) =>
      .ok { position, column := c.name, columnPosition, type := c.type, collation := c.collation }

/-- Adds an index over columns of a table, in the given order. -/
def createIndex (c : Catalog) (tableName : TableName) (name : String) (columns : List String)
    (unique : Bool) : Except CatalogError Catalog := do
  if columns.isEmpty then throw (.emptyIndex name)
  let (schema, table) ← c.locate tableName
  if (table.index? name).isSome then throw (.duplicateIndex name)
  let fields ← columns.zipIdx.mapM fun (column, position) => indexField table column position
  let index : Index := { name, table := table.name, unique, fields }
  let table := { table with indexes := table.indexes ++ [index] }
  return c.withTables schema (schema.tables.insert table)

/-- Takes out an index of a table. -/
def dropIndex (c : Catalog) (tableName : TableName) (name : String) :
    Except CatalogError Catalog := do
  let (schema, table) ← c.locate tableName
  if (table.index? name).isNone then throw (.unknownIndex name)
  let indexes := table.indexes.filter fun i => !Text.sameLetters i.name name
  return c.withTables schema (schema.tables.insert { table with indexes })

end Catalog

end QueryPlanner
