import QueryPlanner.Catalog.Directory
import QueryPlanner.Collation.Basic

/-!
# Tables and indexes

A table has columns in declared order and indexes over them.  Columns and indexes are found by
name in any case of ASCII letters, and keep the spelling they were declared with.
-/

namespace QueryPlanner

/-- The name of a table within its schema. -/
structure TableName where
  schema : String
  table : String
  deriving DecidableEq

/-- A table name with its schema in front. -/
def TableName.text (n : TableName) : String := n.schema ++ "." ++ n.table

/-- A column of a table. -/
structure Column where
  name : String
  type : DataType
  nullable : Bool := true
  collation : Option CollationId := none
  deriving DecidableEq

/-- A declared field of an index. -/
structure IndexField where
  /-- The position within the index. -/
  position : Nat
  /-- The declared name of the column. -/
  column : String
  /-- The position of the column within its table. -/
  columnPosition : Nat
  type : DataType
  collation : Option CollationId
  deriving DecidableEq

/-- An index: an ordered choice of columns of one table. -/
structure Index where
  name : String
  table : TableName
  unique : Bool
  fields : List IndexField
  deriving DecidableEq

namespace Index

/-- The number of declared fields. -/
def degree (i : Index) : Nat := i.fields.length

/-- An index with its table in front and its columns behind. -/
def text (i : Index) : String :=
  i.table.text ++ "." ++ i.name ++ "(" ++ String.intercalate ", " (i.fields.map (·.column)) ++ ")"

end Index

/-- A table with its indexes, in the order of their creation. -/
structure Table where
  name : TableName
  columns : List Column
  indexes : List Index := []
  deriving DecidableEq

namespace Table

instance : Named Table := ⟨fun t => t.name.table⟩

/-- The column that answers to a name, with its position. -/
def column? (t : Table) (name : String) : Option (Nat × Column) :=
  (t.columns.zipIdx.find? fun (c, _) => Text.sameLetters c.name name).map fun (c, i) => (i, c)

/-- The index that answers to a name. -/
def index? (t : Table) (name : String) : Option Index :=
  t.indexes.find? fun i => Text.sameLetters i.name name

theorem getElem?_of_column? {t : Table} {name : String} {position : Nat} {c : Column}
    (h : t.column? name = some (position, c)) : t.columns[position]? = some c := by
  simp only [column?, Option.map_eq_some_iff] at h
  obtain ⟨⟨c', i⟩, hf, h⟩ := h
  have := List.mem_of_find?_eq_some hf
  simp only [Prod.mk.injEq] at h
  obtain ⟨rfl, rfl⟩ := h
  simpa using List.mem_zipIdx_iff_getElem?.1 this

theorem sameLetters_of_column? {t : Table} {name : String} {position : Nat} {c : Column}
    (h : t.column? name = some (position, c)) : Text.sameLetters c.name name = true := by
  simp only [column?, Option.map_eq_some_iff] at h
  obtain ⟨⟨c', i⟩, hf, h⟩ := h
  have := List.find?_some hf
  simp only [Prod.mk.injEq] at h
  obtain ⟨rfl, rfl⟩ := h
  exact this

end Table

end QueryPlanner
