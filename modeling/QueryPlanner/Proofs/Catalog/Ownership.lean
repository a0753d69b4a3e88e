import QueryPlanner.Catalog.Change
import QueryPlanner.Proofs.Except

/-!
# Tables and indexes name what holds them

Every table of a catalog carries the declared name of its schema, and every index the name of the
table that holds it.  Plans name the tables that they read and change in this way, and scans of
indexes are told by it which table they read.

Changes make tables without indexes, add an index to a table, or take things out.  A property of
tables that this keeps is a property of every table, through any run of changes (`Each.foldlM`).

Main statements: that indexes name their tables is such a property (`kept_ownsIndexes`), and a table
is found under its own name (`table?_name`).
-/

namespace QueryPlanner

namespace Directory

variable {α : Type} [Named α] {d : Directory α}

theorem mem_insert {a b : α} (h : b ∈ (d.insert a).items) : b = a ∨ b ∈ d.items :=
  mem_insertInto h

theorem mem_erase {name : String} {b : α} (h : b ∈ (d.erase name).items) : b ∈ d.items :=
  (List.mem_filter.1 h).1

end Directory

namespace Catalog

/-! ## Properties of tables -/

/-- Every table has a property.  Its schema is given by its declared name. -/
def Each (P : String → Table → Prop) (c : Catalog) : Prop :=
  ∀ schema ∈ c.schemas.items, ∀ t ∈ schema.tables.items, P schema.name t

/-- New tables have a property, and indexes may come and go.  The columns of a new table are
distinct, and a new index has a new name and fields over columns of its table. -/
structure Kept (P : String → Table → Prop) : Prop where
  create : ∀ (schema table : String) (columns : List Column), repeatedColumn? [] columns = none →
    P schema { name := ⟨schema, table⟩, columns }
  addIndex : ∀ {schema : String} {t : Table} {columns : List String} {fields : List IndexField}
    (name : String) (unique : Bool), P schema t → columns ≠ [] → t.index? name = none →
      (columns.zipIdx.mapM fun (column, position) => indexField t column position) = .ok fields →
        P schema { t with indexes := t.indexes ++ [{ name, table := t.name, unique, fields }] }
  dropIndexes : ∀ {schema : String} {t : Table} (keep : Index → Bool), P schema t →
    P schema { t with indexes := t.indexes.filter keep }

variable {P : String → Table → Prop} {c c' : Catalog}

theorem eq_of_locate {name : TableName} {schema : Schema} {t : Table}
    (h : c.locate name = .ok (schema, t)) :
    c.schemas.find? name.schema = some schema ∧ schema.tables.find? name.table = some t := by
  unfold locate at h
  split at h
  next => cases h
  next s hs =>
    split at h
    next => cases h
    next t' ht' =>
      cases h
      exact ⟨hs, ht'⟩

namespace Each

theorem empty : Catalog.empty.Each P := nofun

theorem of_locate (hc : c.Each P) {name : TableName} {schema : Schema} {t : Table}
    (h : c.locate name = .ok (schema, t)) : P schema.name t := by
  obtain ⟨hschema, ht⟩ := eq_of_locate h
  exact hc schema (Directory.mem_of_find? hschema) t (Directory.mem_of_find? ht)

/-- Other tables in one of the schemas. -/
theorem withTables (hc : c.Each P) {schema : Schema} {tables : Directory Table}
    (h : ∀ t ∈ tables.items, P schema.name t) : (c.withTables schema tables).Each P := by
  intro s hs t ht
  rcases Directory.mem_insert hs with rfl | hs
  · exact h t ht
  · exact hc s hs t ht

/-- Putting a table with the property into a schema. -/
theorem insert (hc : c.Each P) {name : String} {schema : Schema}
    (hschema : c.schemas.find? name = some schema) {t : Table} (ht : P schema.name t) :
    (c.withTables schema (schema.tables.insert t)).Each P := by
  refine hc.withTables fun t' ht' => ?_
  rcases Directory.mem_insert ht' with rfl | ht'
  · exact ht
  · exact hc schema (Directory.mem_of_find? hschema) t' ht'

theorem createSchema (hc : c.Each P) {name : String} (h : c.createSchema name = .ok c') :
    c'.Each P := by
  unfold Catalog.createSchema at h
  split at h
  next => cases h
  next =>
    cases h
    intro s hs t ht
    rcases Directory.mem_insert hs with rfl | hs
    · cases ht
    · exact hc s hs t ht

theorem dropSchema (hc : c.Each P) {name : String} (h : c.dropSchema name = .ok c') :
    c'.Each P := by
  unfold Catalog.dropSchema at h
  split at h
  next => cases h
  next =>
    split at h
    next =>
      cases h
      exact fun s hs => hc s (Directory.mem_erase hs)
    next => cases h

theorem createTable (hP : Kept P) (hc : c.Each P) {name : TableName} {columns : List Column}
    (h : c.createTable name columns = .ok c') : c'.Each P := by
  unfold Catalog.createTable at h
  split at h
  next => cases h
  next schema hschema =>
    split at h
    next => cases h
    next =>
      split at h
      next => cases h
      next hdistinct =>
        cases h
        exact hc.insert hschema (hP.create schema.name name.table columns hdistinct)

theorem dropTable (hc : c.Each P) {name : TableName} (h : c.dropTable name = .ok c') :
    c'.Each P := by
  unfold Catalog.dropTable at h
  split at h
  next => cases h
  next schema hschema =>
    split at h
    next =>
      cases h
      refine hc.withTables fun t ht => ?_
      exact hc schema (Directory.mem_of_find? hschema) t (Directory.mem_erase ht)
    next => cases h

theorem createIndex (hP : Kept P) (hc : c.Each P) {table : TableName} {name : String}
    {columns : List String} {unique : Bool} (h : c.createIndex table name columns unique = .ok c') :
    c'.Each P := by
  unfold Catalog.createIndex at h
  dsimp only at h
  split at h
  next => cases h
  next hcolumns =>
    obtain ⟨⟨schema, t⟩, hlocate, h⟩ := bind_eq_ok.1 h
    have ht := hc.of_locate hlocate
    dsimp only at h
    split at h
    next => cases h
    next hname =>
      obtain ⟨fields, hfields, h⟩ := bind_eq_ok.1 h
      cases h
      refine hc.insert (eq_of_locate hlocate).1 (hP.addIndex name unique ht ?_ ?_ hfields)
      · simpa using hcolumns
      · simpa using hname

theorem dropIndex (hP : Kept P) (hc : c.Each P) {table : TableName} {name : String}
    (h : c.dropIndex table name = .ok c') : c'.Each P := by
  unfold Catalog.dropIndex at h
  obtain ⟨⟨schema, t⟩, hlocate, h⟩ := bind_eq_ok.1 h
  have ht := hc.of_locate hlocate
  dsimp only at h
  split at h
  next => cases h
  next =>
    cases h
    exact hc.insert (eq_of_locate hlocate).1 (hP.dropIndexes _ ht)

/-- One change keeps the property. -/
theorem apply (hP : Kept P) (hc : c.Each P) {change : Change} (h : c.apply change = .ok c') :
    c'.Each P := by
  cases change with
  | createSchema name => exact hc.createSchema h
  | dropSchema name => exact hc.dropSchema h
  | createTable name definitions =>
      obtain ⟨columns, -, h⟩ := bind_eq_ok.1 h
      exact createTable hP hc h
  | dropTable name => exact hc.dropTable h
  | createIndex table name columns unique => exact createIndex hP hc h
  | dropIndex table name => exact dropIndex hP hc h

/-- A run of changes keeps the property. -/
theorem foldlM (hP : Kept P) (hc : c.Each P) {changes : List Change}
    (h : changes.foldlM Catalog.apply c = .ok c') : c'.Each P := by
  induction changes generalizing c with
  | nil =>
      cases h
      exact hc
  | cons change rest ih =>
      rw [List.foldlM_cons] at h
      obtain ⟨next, hnext, hrest⟩ := bind_eq_ok.1 h
      exact ih (apply hP hc hnext) hrest

end Each

/-! ## Indexes and their tables -/

/-- Every index names the table that holds it. -/
def OwnsIndexes (c : Catalog) : Prop := ∀ t ∈ c.tables, ∀ i ∈ t.indexes, i.table = t.name

instance (c : Catalog) : Decidable c.OwnsIndexes :=
  inferInstanceAs (Decidable (∀ t ∈ c.tables, ∀ i ∈ t.indexes, i.table = t.name))

theorem ownsIndexes_iff_each :
    c.OwnsIndexes ↔ c.Each fun _ t => ∀ i ∈ t.indexes, i.table = t.name := List.forall_mem_flatMap

theorem kept_ownsIndexes : Kept fun _ t => ∀ i ∈ t.indexes, i.table = t.name where
  create _ _ _ _ := nofun
  addIndex name unique ht _ _ _ i hi := by
    rcases List.mem_append.1 hi with hi | hi
    · exact ht i hi
    · rw [List.mem_singleton.1 hi]
  dropIndexes keep ht i hi := ht i (List.mem_filter.1 hi).1

/-! ## Tables and their schemas -/

/-- Every table carries the declared name of its schema. -/
def NamesSchemas (c : Catalog) : Prop := c.Each fun schema t => t.name.schema = schema

theorem kept_namesSchemas : Kept fun schema t => t.name.schema = schema where
  create _ _ _ _ := rfl
  addIndex _ _ ht _ _ _ := ht
  dropIndexes _ ht := ht

/-- A table is found under its own name as it is under any other spelling. -/
theorem table?_name (hc : c.NamesSchemas) {name : TableName} {t : Table}
    (h : c.table? name = some t) : c.table? t.name = some t := by
  obtain ⟨schema, hschema, ht⟩ := Option.bind_eq_some_iff.1 h
  have hmem := Directory.mem_of_find? hschema
  have hname : t.name.schema = schema.name := hc schema hmem t (Directory.mem_of_find? ht)
  have hfound : c.schemas.find? schema.name = some schema := Directory.find?_of_mem hmem rfl
  unfold table?
  rw [hname, hfound]
  exact Directory.find?_of_mem (Directory.mem_of_find? ht) rfl

theorem mem_tables_of_table? {name : TableName} {t : Table} (h : c.table? name = some t) :
    t ∈ c.tables := by
  obtain ⟨schema, hschema, ht⟩ := Option.bind_eq_some_iff.1 h
  exact List.mem_flatMap.2 ⟨schema, Directory.mem_of_find? hschema, Directory.mem_of_find? ht⟩

end Catalog

end QueryPlanner
