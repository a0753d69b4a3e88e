import QueryPlanner.Json.Reader
import QueryPlanner.Statement.Document

/-!
# Snapshots of catalogs

A snapshot is a document that lists schemas with their tables and indexes.  It stands for the
changes that declare them one after the other.  Its parts are objects; arrays of the values of
members, which the planner takes in place of objects, are not read (see `QueryPlanner.Json.Members`).
-/

namespace QueryPlanner

open Json

/-- An index in a snapshot. -/
structure IndexDeclaration where
  name : String
  columns : List String
  unique : Bool := false

/-- A table in a snapshot. -/
structure TableDeclaration where
  name : String
  columns : List ColumnDefinition
  indexes : List IndexDeclaration := []

/-- A schema in a snapshot. -/
structure SchemaDeclaration where
  name : String
  tables : List TableDeclaration := []

/-- A list of schemas with what belongs to them. -/
structure Snapshot where
  schemas : List SchemaDeclaration := []

/-! ## In documents -/

def IndexDeclaration.ofJson? : Json → Option IndexDeclaration
  | .object members => do
      return {
        name := ← need? text? members "name"
        columns := ← need? (list? text?) members "columns"
        unique := ← orElse? flag? members "unique" false }
  | _ => none

def TableDeclaration.ofJson? : Json → Option TableDeclaration
  | .object members => do
      return {
        name := ← need? text? members "name"
        columns := ← need? (list? (ColumnDefinition.ofJson? .strict)) members "columns"
        indexes := ← orElse? (list? IndexDeclaration.ofJson?) members "indexes" [] }
  | _ => none

def SchemaDeclaration.ofJson? : Json → Option SchemaDeclaration
  | .object members => do
      return {
        name := ← need? text? members "name"
        tables := ← orElse? (list? TableDeclaration.ofJson?) members "tables" [] }
  | _ => none

namespace Snapshot

def ofJson? : Json → Option Snapshot
  | .object members => do
      return { schemas := ← orElse? (list? SchemaDeclaration.ofJson?) members "schemas" [] }
  | _ => none

/-- The snapshot of a document.  A member that is passed over may be anything, but no member that
is read may be repeated. -/
def ofText? (text : String) : Option Snapshot := (parse? text).bind ofJson?

/-! ## The catalog of a snapshot -/

/-- The changes that a table of a schema stands for: the table comes before its indexes. -/
def tableChanges (schema : String) (t : TableDeclaration) : List Change :=
  let name : TableName := ⟨schema, t.name⟩
  .createTable name t.columns ::
    t.indexes.map fun i => .createIndex name i.name i.columns i.unique

/-- The changes that a snapshot stands for. -/
def changes (s : Snapshot) : List Change :=
  s.schemas.flatMap fun schema =>
    .createSchema schema.name :: schema.tables.flatMap (tableChanges schema.name)

end Snapshot

namespace Catalog

/-- Carries changes out one after the other; the first one that is refused refuses all. -/
def applyAll (c : Catalog) (changes : List Change) : Except CatalogError Catalog :=
  changes.foldlM apply c

/-- The catalog that a snapshot describes. -/
def ofSnapshot (s : Snapshot) : Except CatalogError Catalog := empty.applyAll s.changes

/-- The catalog that the text of a snapshot describes. -/
def ofText (text : String) : Except CatalogError Catalog :=
  match Snapshot.ofText? text with
  | some snapshot => ofSnapshot snapshot
  | none => .error (.malformed .notADocument)

end Catalog

end QueryPlanner
