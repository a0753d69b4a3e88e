import QueryPlanner.Proofs.Catalog.Ownership
import QueryPlanner.Proofs.Text.Spelling

/-!
# What stands under the name of a table

A catalog has one place for every name of a table, in whichever case the letters of the name are:
the schema is missing, or there is a table, or there is room for one.  The calls that declare or
drop a table or an index of it look at this place (`Catalog.standing?`) and change it (`Catalog.place`),
and have nothing to do with the rest of the catalog.

What is put in a place is found there, what stands elsewhere stays, and of two things put in one
place the later one stands (`Directory.find?_place`).  A catalog is known by what is found in it
(`Directory.ext_find?`), so all other laws of places follow from these.

Main statements: `createTable_eq`, `dropTable_eq`, `createIndex_eq` and `dropIndex_eq`.
-/

namespace QueryPlanner

theorem Text.lowercase_of_sameLetters {a b : String} (h : sameLetters a b = true) :
    lowercase a = lowercase b := by
  have hfolded : folded a = folded b := congrArg String.ofList (sameLetters_iff.1 h)
  rw [← lowercase_folded a, hfolded, lowercase_folded]

/-! ## Places of a directory -/

namespace Directory

variable {α : Type} [Named α] {d e : Directory α} {m n : String} {a b : Option α}

theorem mem_items_iff {a : α} : a ∈ d.items ↔ d.find? (Named.name a) = some a :=
  ⟨fun ha => find?_of_mem ha rfl, mem_of_find?⟩

/-- Directories in which every name finds the same are the same. -/
theorem ext_find? (h : ∀ name, d.find? name = e.find? name) : d = e := by
  have hnodup (d : Directory α) : d.items.Nodup := d.sorted.imp fun hlt heq => by
    rw [heq] at hlt
    exact String.lt_irrefl _ hlt
  have hperm : d.items.Perm e.items := by
    rw [List.perm_ext_iff_of_nodup (hnodup d) (hnodup e)]
    intro a
    rw [mem_items_iff, mem_items_iff, h]
  refine ext (hperm.eq_of_pairwise ?_ d.sorted e.sorted)
  intro a b _ _ hab hba
  exact absurd (String.lt_trans hab hba) (String.lt_irrefl _)

/-- Whether a thing may stand under a name; nothing always may. -/
def Fits (name : String) (a : Option α) : Prop := ∀ b ∈ a, Named.key b = Text.lowercase name

/-- Puts a thing under a name, or takes away what stands there. -/
def place (d : Directory α) (name : String) : Option α → Directory α
  | some a => d.insert a
  | none => d.erase name

theorem find?_place (h : Fits m a) (name : String) :
    (d.place m a).find? name =
      if Text.lowercase m = Text.lowercase name then a else d.find? name := by
  cases a with
  | none => exact find?_erase d m name
  | some a =>
      rw [place, find?_insert, h a rfl]

theorem fits_none : Fits m (none : Option α) := nofun

theorem fits_some {a : α} : Fits m (some a) ↔ Named.key a = Text.lowercase m := by
  simp [Fits]

theorem fits_find? (d : Directory α) (name : String) : Fits name (d.find? name) :=
  fun _ hb => key_of_find? hb

/-- Putting back what stands under a name changes nothing. -/
theorem place_find? (h : d.find? m = a) : d.place m a = d := by
  refine ext_find? fun name => ?_
  rw [find?_place (h ▸ d.fits_find? m)]
  split
  next hname => rw [← d.find?_congr hname, h]
  next => rfl

theorem place_place (ha : Fits m a) (hb : Fits n b) (h : Text.lowercase m = Text.lowercase n) :
    (d.place m a).place n b = d.place n b := by
  refine ext_find? fun name => ?_
  simp only [find?_place hb, find?_place ha, h]
  split <;> rfl

theorem place_comm (ha : Fits m a) (hb : Fits n b) (h : Text.lowercase m ≠ Text.lowercase n) :
    (d.place m a).place n b = (d.place n b).place m a := by
  refine ext_find? fun name => ?_
  simp only [find?_place hb, find?_place ha]
  by_cases hm : Text.lowercase m = Text.lowercase name
  · simp [hm, hm ▸ h.symm]
  · simp [hm]

end Directory

/-! ## Places of a catalog -/

namespace TableName

/-- The name in small letters, under which a table is found. -/
def key (n : TableName) : String × String := (Text.lowercase n.schema, Text.lowercase n.table)

/-- Whether two names differ at most in the case of ASCII letters. -/
def SameLetters (m n : TableName) : Prop :=
  Text.sameLetters m.schema n.schema = true ∧ Text.sameLetters m.table n.table = true

theorem key_eq_iff {m n : TableName} : m.key = n.key ↔
    Text.lowercase m.schema = Text.lowercase n.schema ∧
      Text.lowercase m.table = Text.lowercase n.table := by simp [key]

theorem key_of_sameLetters {m n : TableName} (h : m.SameLetters n) : m.key = n.key :=
  key_eq_iff.2 ⟨Text.lowercase_of_sameLetters h.1, Text.lowercase_of_sameLetters h.2⟩

end TableName

/-- The schema with a table put under a name, or without the table that stands there. -/
def Schema.place (schema : Schema) (name : String) (t : Option Table) : Schema :=
  { schema with tables := schema.tables.place name t }

namespace Catalog

/-- What stands under the name of a table: nothing without its schema, else the declared name of the
schema, and a table if there is one. -/
def standing? (c : Catalog) (name : TableName) : Option (String × Option Table) :=
  (c.schemas.find? name.schema).map fun schema => (schema.name, schema.tables.find? name.table)

/-- Puts a table under a name, or takes away the table that stands there. -/
def place (c : Catalog) (name : TableName) (t : Option Table) : Catalog :=
  match c.schemas.find? name.schema with
  | none => c
  | some schema => { c with schemas := c.schemas.insert (schema.place name.table t) }

variable {c c' : Catalog} {m n : TableName} {t u : Option Table}

theorem ext_find? (h : ∀ name, c.schemas.find? name = c'.schemas.find? name) : c = c' :=
  congrArg Catalog.mk (Directory.ext_find? h)

theorem place_of_find? {schema : Schema} (h : c.schemas.find? n.schema = some schema) :
    c.place n t = c.withTables schema (schema.tables.place n.table t) := by
  rw [place, h]
  rfl

/-- The schema of the name gets another table, and all others are kept. -/
theorem find?_schemas_place (name : String) :
    (c.place n t).schemas.find? name =
      if Text.lowercase n.schema = Text.lowercase name then
        (c.schemas.find? n.schema).map fun schema => schema.place n.table t
      else c.schemas.find? name := by
  unfold place
  split
  next hnone =>
    split
    next hname => rw [← c.schemas.find?_congr hname, hnone, Option.map_none]
    next => rfl
  next schema hschema =>
    have hkey : Named.key schema = Text.lowercase n.schema := Directory.key_of_find? hschema
    have hplaced : Named.key (schema.place n.table t) = Text.lowercase n.schema := hkey
    rw [Directory.find?_insert, hplaced, hschema, Option.map_some]

theorem standing?_congr (h : m.key = n.key) : c.standing? m = c.standing? n := by
  obtain ⟨hschema, htable⟩ := TableName.key_eq_iff.1 h
  simp only [standing?, c.schemas.find?_congr hschema, Directory.find?_congr _ htable]

/-- What is put under a name is found there. -/
theorem standing?_place (ht : Directory.Fits m.table t) (h : m.key = n.key) :
    (c.place m t).standing? n = (c.standing? n).map fun entry => (entry.1, t) := by
  obtain ⟨hschema, htable⟩ := TableName.key_eq_iff.1 h
  simp only [standing?, find?_schemas_place, c.schemas.find?_congr hschema, hschema, if_true,
    Option.map_map, Function.comp_def, Schema.place, Directory.find?_place ht, htable]

/-- What stands under other names stays. -/
theorem standing?_place_of_ne (ht : Directory.Fits m.table t) (h : m.key ≠ n.key) :
    (c.place m t).standing? n = c.standing? n := by
  rw [standing?, standing?, find?_schemas_place]
  split
  next hschema =>
    have htable : Text.lowercase m.table ≠ Text.lowercase n.table :=
      fun htable => h (TableName.key_eq_iff.2 ⟨hschema, htable⟩)
    simp only [c.schemas.find?_congr hschema, Option.map_map, Function.comp_def, Schema.place,
      Directory.find?_place ht, if_neg htable]
  next => rfl

theorem fits_of_standing? {schema : String} (h : c.standing? n = some (schema, t)) :
    Directory.Fits n.table t := by
  obtain ⟨s, -, hentry⟩ := Option.map_eq_some_iff.1 h
  have ht : s.tables.find? n.table = t := (Prod.ext_iff.1 hentry).2
  exact ht ▸ s.tables.fits_find? n.table

/-- A table that keeps its name keeps its place. -/
theorem fits_of_name_eq {name : String} {u v : Table} (hu : Directory.Fits name (some u))
    (h : v.name = u.name) : Directory.Fits name (some v) := by
  have hkey : Named.key v = Named.key u :=
    congrArg (fun name : TableName => Text.lowercase name.table) h
  exact Directory.fits_some.2 (hkey.trans (Directory.fits_some.1 hu))

/-- Putting back what stands under a name changes nothing. -/
theorem place_standing? {schema : String} (h : c.standing? n = some (schema, t)) : c.place n t = c := by
  obtain ⟨s, hs, hentry⟩ := Option.map_eq_some_iff.1 h
  have hsame : s.place n.table t = s :=
    congrArg (Schema.mk s.name) (Directory.place_find? (Prod.ext_iff.1 hentry).2)
  refine ext_find? fun name => ?_
  rw [find?_schemas_place]
  split
  next hname => rw [← c.schemas.find?_congr hname, hs, Option.map_some, hsame]
  next => rfl

/-- Of two tables put under one name the later one stands. -/
theorem place_place (ht : Directory.Fits m.table t) (hu : Directory.Fits n.table u)
    (h : m.key = n.key) : (c.place m t).place n u = c.place n u := by
  obtain ⟨hschema, htable⟩ := TableName.key_eq_iff.1 h
  refine ext_find? fun name => ?_
  simp only [find?_schemas_place, c.schemas.find?_congr hschema, hschema, if_true, Option.map_map,
    Function.comp_def, Schema.place, Directory.place_place ht hu htable]
  split <;> rfl

/-- Tables may be put under different names in either order. -/
theorem place_comm (ht : Directory.Fits m.table t) (hu : Directory.Fits n.table u)
    (h : m.key ≠ n.key) : (c.place m t).place n u = (c.place n u).place m t := by
  refine ext_find? fun name => ?_
  simp only [find?_schemas_place]
  by_cases hschema : Text.lowercase m.schema = Text.lowercase n.schema
  · have htable : Text.lowercase m.table ≠ Text.lowercase n.table :=
      fun htable => h (TableName.key_eq_iff.2 ⟨hschema, htable⟩)
    simp only [c.schemas.find?_congr hschema, hschema, if_true, Option.map_map, Function.comp_def,
      Schema.place, Directory.place_comm ht hu htable]
    split <;> rfl
  · by_cases hm : Text.lowercase m.schema = Text.lowercase name
    · simp [hm, hm ▸ Ne.symm hschema]
    · simp [hm, hschema]

/-! ## Calls -/

/-- A table is declared where there is room for it. -/
theorem createTable_eq (c : Catalog) (n : TableName) (columns : List Column) :
    c.createTable n columns =
      match c.standing? n with
      | none => .error (.unknownSchema n.schema)
      | some (_, some _) => .error (.duplicateTable n.text)
      | some (schema, none) =>
          match repeatedColumn? [] columns with
          | some column => .error (.duplicateColumn n.text column.name)
          | none => .ok (c.place n (some { name := ⟨schema, n.table⟩, columns })) := by
  unfold createTable standing?
  cases hschema : c.schemas.find? n.schema with
  | none => rfl
  | some schema =>
      simp only [place_of_find? hschema]
      cases ht : schema.tables.find? n.table with
      | none =>
          cases repeatedColumn? [] columns with
          | none => simp [Directory.contains, ht, Directory.place]
          | some column => simp [Directory.contains, ht]
      | some t => simp [Directory.contains, ht]

/-- A table is dropped where it stands. -/
theorem dropTable_eq (c : Catalog) (n : TableName) :
    c.dropTable n =
      match c.standing? n with
      | none => .error (.unknownSchema n.schema)
      | some (_, none) => .error (.unknownTable n.text)
      | some (_, some _) => .ok (c.place n none) := by
  unfold dropTable standing?
  cases hschema : c.schemas.find? n.schema with
  | none => rfl
  | some schema =>
      rw [place_of_find? hschema]
      cases ht : schema.tables.find? n.table with
      | none => simp [Directory.contains, ht]
      | some t => simp [Directory.contains, ht, Directory.place]

/-- Makes another table of the one that stands under a name. -/
def modify (c : Catalog) (n : TableName) (f : Table → Except CatalogError Table) :
    Except CatalogError Catalog :=
  match c.standing? n with
  | none => .error (.unknownSchema n.schema)
  | some (_, none) => .error (.unknownTable n.text)
  | some (_, some t) => (f t).map fun t => c.place n (some t)

theorem locate_bind (c : Catalog) (n : TableName) (f : Table → Except CatalogError Table) :
    (do
      let (schema, t) ← c.locate n
      let t ← f t
      return c.withTables schema (schema.tables.insert t)) = c.modify n f := by
  unfold locate modify standing?
  cases hschema : c.schemas.find? n.schema with
  | none => rfl
  | some schema =>
      simp only [place_of_find? hschema, Option.map_some]
      cases schema.tables.find? n.table with
      | none => rfl
      | some t => cases f t <;> rfl

end Catalog

namespace Table

/-- The table with another index over its columns, in the given order. -/
def addIndex (t : Table) (name : String) (columns : List String) (unique : Bool) :
    Except CatalogError Table := do
  if (t.index? name).isSome then throw (.duplicateIndex name)
  let fields ← columns.zipIdx.mapM fun (column, position) => Catalog.indexField t column position
  return { t with indexes := t.indexes ++ [{ name, table := t.name, unique, fields }] }

/-- The table without an index. -/
def removeIndex (t : Table) (name : String) : Except CatalogError Table :=
  if (t.index? name).isNone then .error (.unknownIndex name)
  else .ok { t with indexes := t.indexes.filter fun i => !Text.sameLetters i.name name }

theorem name_of_addIndex {t t' : Table} {name : String} {columns : List String}
    {unique : Bool} (h : t.addIndex name columns unique = .ok t') : t'.name = t.name := by
  unfold addIndex at h
  split at h
  next => cases h
  next =>
    obtain ⟨fields, -, h⟩ := bind_eq_ok.1 h
    cases h
    rfl

theorem name_of_removeIndex {t t' : Table} {name : String}
    (h : t.removeIndex name = .ok t') : t'.name = t.name := by
  unfold removeIndex at h
  split at h
  next => cases h
  next =>
    cases h
    rfl

end Table

namespace Catalog

/-- An index is added to the table that stands under a name. -/
theorem createIndex_eq (c : Catalog) (n : TableName) (name : String) (columns : List String)
    (unique : Bool) :
    c.createIndex n name columns unique =
      if columns.isEmpty then .error (.emptyIndex name)
      else c.modify n fun t => t.addIndex name columns unique := by
  unfold createIndex
  split
  next => rfl
  next =>
    rw [← locate_bind]
    refine bind_congr fun (schema, t) => ?_
    simp only [Table.addIndex]
    split
    next => rfl
    next => simp

/-- An index is taken out of the table that stands under a name. -/
theorem dropIndex_eq (c : Catalog) (n : TableName) (name : String) :
    c.dropIndex n name = c.modify n fun t => t.removeIndex name := by
  unfold dropIndex
  rw [← locate_bind]
  refine bind_congr fun (schema, t) => ?_
  simp only [Table.removeIndex]
  split <;> rfl

end Catalog

end QueryPlanner
