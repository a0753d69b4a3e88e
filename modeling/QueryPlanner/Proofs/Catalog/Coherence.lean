import QueryPlanner.AccessPath.Choice
import QueryPlanner.Catalog.Snapshot
import QueryPlanner.Proofs.Session.Reachable

/-!
# Catalogs are coherent

The parts of a catalog refer to each other by name and by position: tables carry the name of their
schema, indexes that of their table, and the fields of an index give the columns of the table by
their positions and repeat what these are declared to be.  Names are found in two ways, in any case
of letters for schemas and tables and in any case of ASCII letters for columns and indexes, and in
each way a name is found once.

All this holds however a catalog came about: by calls, refused ones included, by the text of a
snapshot, or by declarations in a session.  One call keeps it (`kept_coherent`), so every run of
calls does.

Main statement: `coherent_of_reachable`.  It also says that the restrictions on the columns of a
table may be kept in a list and looked up there by the positions that the fields of indexes give.
-/

namespace QueryPlanner

/-! ## How catalogs come about -/

namespace Catalog

/-- The catalog after a call: what the call made of it, or the same catalog if it was refused. -/
def after (c : Catalog) : Except CatalogError Catalog → Catalog
  | .ok c' => c'
  | .error _ => c

end Catalog

/-- The session after a declaration, which is the same session if it was refused. -/
def Session.after (s : Session) : Except SessionError Session → Session
  | .ok s' => s'
  | .error _ => s

/-- The catalogs that calls, snapshots and declarations lead to. -/
inductive Catalog.Reachable : Catalog → Prop where
  | empty : Reachable .empty
  | loaded {c : Catalog} (text : String) (loads : ofText text = .ok c) : Reachable c
  | createSchema {c : Catalog} (reachable : Reachable c) (name : String) :
      Reachable (c.after (c.createSchema name))
  | dropSchema {c : Catalog} (reachable : Reachable c) (name : String) :
      Reachable (c.after (c.dropSchema name))
  | createTable {c : Catalog} (reachable : Reachable c) (name : TableName)
      (columns : List Column) : Reachable (c.after (c.createTable name columns))
  | dropTable {c : Catalog} (reachable : Reachable c) (name : TableName) :
      Reachable (c.after (c.dropTable name))
  | createIndex {c : Catalog} (reachable : Reachable c) (table : TableName) (name : String)
      (columns : List String) (unique : Bool) :
      Reachable (c.after (c.createIndex table name columns unique))
  | dropIndex {c : Catalog} (reachable : Reachable c) (table : TableName) (name : String) :
      Reachable (c.after (c.dropIndex table name))
  | declared {s : Session} (reachable : Reachable s.catalog) (statement : Statement)
      (hints : List (Option DataType)) :
      Reachable (s.after (s.apply statement hints)).catalog

namespace Catalog.Reachable

variable {c c' : Catalog}

/-- A change that is carried out is one of the calls. -/
theorem apply (h : c.Reachable) {change : Change} (hc : c.apply change = .ok c') :
    c'.Reachable := by
  have hcall {x : Except CatalogError Catalog} (hx : x = .ok c') (hreach : (c.after x).Reachable) :
      c'.Reachable := by
    rwa [hx] at hreach
  cases change with
  | createSchema name => exact hcall hc (h.createSchema name)
  | dropSchema name => exact hcall hc (h.dropSchema name)
  | createTable name definitions =>
      obtain ⟨columns, -, hc⟩ := bind_eq_ok.1 hc
      exact hcall hc (h.createTable name columns)
  | dropTable name => exact hcall hc (h.dropTable name)
  | createIndex table name columns unique =>
      exact hcall hc (h.createIndex table name columns unique)
  | dropIndex table name => exact hcall hc (h.dropIndex table name)

theorem foldlM (h : c.Reachable) {changes : List Change}
    (hc : changes.foldlM Catalog.apply c = .ok c') : c'.Reachable := by
  induction changes generalizing c with
  | nil =>
      cases hc
      exact h
  | cons change rest ih =>
      rw [List.foldlM_cons] at hc
      obtain ⟨next, hnext, hrest⟩ := bind_eq_ok.1 hc
      exact ih (h.apply hnext) hrest

end Catalog.Reachable

/-! ## Coherence -/

/-- An index is over columns of a table: it names the table, has fields in order, and each of them
gives the position of a column of the table and repeats its declared name, type and collation. -/
structure Index.Over (i : Index) (t : Table) : Prop where
  table : i.table = t.name
  nonempty : i.fields ≠ []
  fields : ∀ (position : Nat) field, i.fields[position]? = some field →
    field.position = position ∧ ∃ c, t.columns[field.columnPosition]? = some c ∧
      field.column = c.name ∧ field.type = c.type ∧ field.collation = c.collation

/-- Of a table, an index is over the name and the columns. -/
theorem Index.Over.of_eq {i : Index} {t t' : Table} (h : i.Over t) (hname : t'.name = t.name)
    (hcolumns : t'.columns = t.columns) : i.Over t' where
  table := h.table.trans hname.symm
  nonempty := h.nonempty
  fields := hcolumns ▸ h.fields

/-- A table of a schema, with distinct columns and with distinct indexes over them. -/
structure Table.Coherent (schema : String) (t : Table) : Prop where
  schema : t.name.schema = schema
  columns : t.columns.Pairwise fun a b => Text.sameLetters a.name b.name = false
  indexNames : t.indexes.Pairwise fun i j => Text.sameLetters i.name j.name = false
  indexes : ∀ i ∈ t.indexes, i.Over t

/-- Schemas and their tables are found under the spellings of their declared names and under no
others, and every table is coherent. -/
structure Catalog.Coherent (c : Catalog) : Prop where
  schemas : ∀ schema ∈ c.schemas.items, ∀ name,
    c.schemas.find? name = some schema ↔ Text.lowercase name = Text.lowercase schema.name
  tables : ∀ schema ∈ c.schemas.items, ∀ t ∈ schema.tables.items, ∀ name,
    schema.tables.find? name = some t ↔ Text.lowercase name = Text.lowercase t.name.table
  each : c.Each Table.Coherent

theorem Directory.find?_eq_some_iff {α : Type} [Named α] {d : Directory α} {a : α}
    (ha : a ∈ d.items) {name : String} :
    d.find? name = some a ↔ Text.lowercase name = Named.key a :=
  ⟨fun h => (key_of_find? h).symm, find?_of_mem ha⟩

namespace Catalog

/-- Columns that are checked for repetitions are distinct from each other and from earlier ones. -/
theorem pairwise_of_repeatedColumn? {earlier columns : List Column}
    (h : repeatedColumn? earlier columns = none) :
    (∀ e ∈ earlier, ∀ c ∈ columns, Text.sameLetters e.name c.name = false) ∧
      columns.Pairwise fun a b => Text.sameLetters a.name b.name = false := by
  induction columns generalizing earlier with
  | nil => exact ⟨nofun, .nil⟩
  | cons c rest ih =>
      unfold repeatedColumn? at h
      split at h
      next => cases h
      next hnew =>
        have hc : ∀ e ∈ earlier, Text.sameLetters e.name c.name = false := by
          simpa using hnew
        obtain ⟨hearlier, hrest⟩ := ih h
        refine ⟨fun e he => List.forall_mem_cons.2 ⟨hc e he, ?_⟩, List.pairwise_cons.2 ⟨?_, hrest⟩⟩
        · exact hearlier e (List.mem_append_left _ he)
        · exact hearlier c (List.mem_append_right _ (List.mem_singleton_self c))

/-- A new index is over columns of its table. -/
theorem over_of_indexFields {t : Table} {name : String} {unique : Bool} {columns : List String}
    {fields : List IndexField} (hcolumns : columns ≠ [])
    (h : (columns.zipIdx.mapM fun (column, position) => indexField t column position) =
      .ok fields) :
    Index.Over { name, table := t.name, unique, fields } t := by
  obtain ⟨hlength, hfields⟩ := getElem?_of_mapM h
  rw [List.length_zipIdx] at hlength
  refine ⟨rfl, fun hempty => ?_, fun position field hfield => ?_⟩
  · replace hempty : fields = [] := hempty
    rw [hempty] at hlength
    exact hcolumns (List.eq_nil_of_length_eq_zero hlength.symm)
  · replace hfield : fields[position]? = some field := hfield
    obtain ⟨hlt, -⟩ := List.getElem?_eq_some_iff.1 hfield
    have hzip : columns.zipIdx[position]? = some (columns[position], position) := by
      rw [List.getElem?_zipIdx, List.getElem?_eq_getElem (hlength ▸ hlt), Nat.zero_add]
      rfl
    obtain ⟨made, hmade, hfrom⟩ := hfields position _ hzip
    obtain rfl : field = made := Option.some.inj (hfield.symm.trans hmade)
    -- The field is made from the column that answers to its name.
    dsimp only at hfrom
    unfold indexField at hfrom
    split at hfrom
    next => cases hfrom
    next columnPosition c hc =>
      cases hfrom
      exact ⟨rfl, c, Table.getElem?_of_column? hc, rfl, rfl, rfl⟩

/-- Calls keep tables coherent. -/
theorem kept_coherent : Kept Table.Coherent where
  create _ _ _ hdistinct := ⟨rfl, (pairwise_of_repeatedColumn? hdistinct).2, .nil, nofun⟩
  addIndex name unique ht hcolumns hnew hfields := by
    have hnames := List.find?_eq_none.1 hnew
    refine ⟨ht.schema, ht.columns, List.pairwise_append.2 ⟨ht.indexNames, ?_, ?_⟩, fun i hi => ?_⟩
    · exact List.pairwise_singleton _ _
    · intro i hi j hj
      rw [List.mem_singleton.1 hj]
      exact eq_false_of_ne_true (hnames i hi)
    · rcases List.mem_append.1 hi with hi | hi
      · exact (ht.indexes i hi).of_eq rfl rfl
      · rw [List.mem_singleton.1 hi]
        exact (over_of_indexFields hcolumns hfields).of_eq rfl rfl
  dropIndexes keep ht := by
    refine ⟨ht.schema, ht.columns, ht.indexNames.filter keep, fun i hi => ?_⟩
    exact (ht.indexes i (List.mem_filter.1 hi).1).of_eq rfl rfl

namespace Each

variable {P : String → Table → Prop} {c : Catalog}

/-- What a call keeps also holds after a refused one. -/
theorem after (hc : c.Each P) {x : Except CatalogError Catalog}
    (h : ∀ c', x = .ok c' → c'.Each P) : (c.after x).Each P := by
  cases x with
  | error e => exact hc
  | ok c' => exact h c' rfl

theorem declared (hP : Kept P) {s : Session} (hs : s.catalog.Each P) (statement : Statement)
    (hints : List (Option DataType)) : (s.after (s.apply statement hints)).catalog.Each P := by
  cases happly : s.apply statement hints with
  | error e => exact hs
  | ok s' =>
      rcases Session.catalog_of_apply happly with hsame | ⟨change, hchange⟩
      · show s'.catalog.Each P
        rw [hsame]
        exact hs
      · exact apply hP hs hchange

theorem loaded (hP : Kept P) {text : String} (h : ofText text = .ok c) : c.Each P := by
  unfold ofText at h
  split at h
  · exact foldlM hP .empty h
  · cases h

end Each

/-- What calls keep of tables holds of all tables of a catalog, however it came about. -/
theorem Reachable.each {P : String → Table → Prop} (hP : Kept P) {c : Catalog}
    (h : c.Reachable) : c.Each P := by
  induction h with
  | empty => exact .empty
  | loaded text loads => exact .loaded hP loads
  | createSchema _ name ih => exact ih.after fun _ => ih.createSchema
  | dropSchema _ name ih => exact ih.after fun _ => ih.dropSchema
  | createTable _ name columns ih => exact ih.after fun _ => .createTable hP ih
  | dropTable _ name ih => exact ih.after fun _ => ih.dropTable
  | createIndex _ table name columns unique ih => exact ih.after fun _ => .createIndex hP ih
  | dropIndex _ table name ih => exact ih.after fun _ => .dropIndex hP ih
  | declared _ statement hints ih => exact .declared hP ih statement hints

end Catalog

/-! ## Columns by position -/

/-- What search arguments say about one column. -/
structure ColumnRestrictions where
  equal : Option BoundValue
  lower : Option (BoundValue × Bool)
  upper : Option (BoundValue × Bool)

/-- What search arguments say about the columns of a table, in declared order. -/
def SearchArgument.byColumn (arguments : List SearchArgument) (t : Table) :
    List ColumnRestrictions :=
  (List.range t.columns.length).map fun position =>
    ⟨equal? arguments position, lower? arguments position, upper? arguments position⟩

theorem SearchArgument.getElem?_byColumn (arguments : List SearchArgument) {t : Table}
    {position : Nat} {c : Column} (h : t.columns[position]? = some c) :
    (byColumn arguments t)[position]? =
      some ⟨equal? arguments position, lower? arguments position, upper? arguments position⟩ := by
  obtain ⟨hlt, -⟩ := List.getElem?_eq_some_iff.1 h
  unfold byColumn
  rw [List.getElem?_map, List.getElem?_range hlt]
  rfl

namespace Candidate

/-- The values that the run of equalities binds, looked up by position.  There are none if a
position is not one of the columns. -/
def fixedByPosition (columns : List ColumnRestrictions) : List IndexField → Option (List BoundValue)
  | [] => some []
  | field :: rest => do
      let column ← columns[field.columnPosition]?
      match column.equal with
      | some value => return value :: (← fixedByPosition columns rest)
      | none => return []

/-- The candidate of a run of equalities and of an interval on the next field. -/
def ofInterval (index : Index) (fixed : List BoundValue) (lo hi : Option (BoundValue × Bool)) :
    Except PlanError (Option Candidate) := do
  let extend : BoundValue × Bool → RangeEnd := fun (value, inclusive) =>
    ⟨.ofLeading (fixed ++ [value]), inclusive⟩
  if lo.isNone && hi.isNone then
    if fixed.isEmpty then return none
    let both : RangeEnd := ⟨.ofLeading fixed, true⟩
    let range ← KeyRange.ofEnds index (some both) (some both)
    return some ⟨range.settle, fixed.length⟩
  let range ← KeyRange.ofEnds index (lo.map extend) (hi.map extend)
  return some ⟨range.settle, fixed.length⟩

/-- The candidate that single columns give, looked up by position. -/
def ofPositions (columns : List ColumnRestrictions) (index : Index) :
    Option (Except PlanError (Option Candidate)) := do
  let fixed ← fixedByPosition columns index.fields
  match index.fields[fixed.length]? with
  | none => return ofInterval index fixed none none
  | some field =>
      let column ← columns[field.columnPosition]?
      return ofInterval index fixed column.lower column.upper

theorem fixedByPosition_byColumn (arguments : List SearchArgument) {t : Table}
    {fields : List IndexField}
    (h : ∀ field ∈ fields, ∃ c, t.columns[field.columnPosition]? = some c) :
    fixedByPosition (SearchArgument.byColumn arguments t) fields =
      some (fixedValues arguments fields) := by
  induction fields with
  | nil => rfl
  | cons field rest ih =>
      rw [List.forall_mem_cons] at h
      obtain ⟨⟨c, hc⟩, hrest⟩ := h
      rw [fixedByPosition, fixedValues, SearchArgument.getElem?_byColumn arguments hc, ih hrest]
      cases SearchArgument.equal? arguments field.columnPosition <;> rfl

/-- No position of an index that is over columns of a table misses these. -/
theorem ofPositions_byColumn (arguments : List SearchArgument) {t : Table} {index : Index}
    (h : index.Over t) :
    ofPositions (SearchArgument.byColumn arguments t) index = some (ofColumns arguments index) := by
  have hfields : ∀ field ∈ index.fields, ∃ c, t.columns[field.columnPosition]? = some c := by
    intro field hfield
    obtain ⟨position, hposition⟩ := List.getElem?_of_mem hfield
    obtain ⟨-, c, hc, -⟩ := h.fields position field hposition
    exact ⟨c, hc⟩
  unfold ofPositions ofColumns
  rw [fixedByPosition_byColumn arguments hfields]
  generalize fixedValues arguments index.fields = fixed
  dsimp only [Option.bind_eq_bind, Option.bind_some]
  cases hnext : index.fields[fixed.length]? with
  | none => rfl
  | some field =>
      obtain ⟨c, hc⟩ := hfields field (List.mem_of_getElem? hnext)
      dsimp only
      rw [SearchArgument.getElem?_byColumn arguments hc]
      rfl

end Candidate

namespace Catalog

/-- However a catalog came about, schemas and tables are found under the spellings of their names
and no others; tables carry the declared names of their schemas, and have distinct columns and
distinct indexes; and indexes name their tables and have fields, which are numbered in order and
repeat the columns of the table that they give by position.  The restrictions on columns that an
access path is chosen by can therefore be looked up by these positions, and none is missed. -/
theorem coherent_of_reachable {c : Catalog} (h : c.Reachable) :
    c.Coherent ∧ ∀ t ∈ c.tables, ∀ index ∈ t.indexes, ∀ arguments,
      Candidate.ofPositions (SearchArgument.byColumn arguments t) index =
        some (Candidate.ofColumns arguments index) := by
  have heach := h.each kept_coherent
  refine ⟨⟨?_, ?_, heach⟩, fun t ht index hindex arguments => ?_⟩
  · exact fun schema hschema name => Directory.find?_eq_some_iff hschema
  · exact fun schema _ t ht name => Directory.find?_eq_some_iff ht
  · obtain ⟨schema, hschema, ht⟩ := List.mem_flatMap.1 ht
    have hover := (heach schema hschema t ht).indexes index hindex
    exact Candidate.ofPositions_byColumn arguments hover

end Catalog

/-- A catalog with a table `t (Id, Note)` in the schema `main`, and with an index on it. -/
def ledgerCatalog : Catalog :=
  let index : Index :=
    { name := "byNote"
      table := ⟨"main", "t"⟩
      unique := false
      fields := [⟨0, "Note", 1, .varchar, none⟩, ⟨1, "Id", 0, .bigint, none⟩] }
  let t : Table :=
    { name := ⟨"main", "t"⟩
      columns := [{ name := "Id", type := .bigint }, { name := "Note", type := .varchar }]
      indexes := [index] }
  ⟨⟨[{ name := "main", tables := ⟨[t], List.pairwise_singleton _ _⟩ }],
    List.pairwise_singleton _ _⟩⟩

theorem coherent_ledgerCatalog :
    ledgerCatalog.Reachable ∧ ledgerCatalog.Coherent ∧
      ∀ t ∈ ledgerCatalog.tables, ∀ index ∈ t.indexes, ∀ arguments,
        Candidate.ofPositions (SearchArgument.byColumn arguments t) index =
          some (Candidate.ofColumns arguments index) := by
  have hmade : [Change.createSchema "main",
      .createTable ⟨"main", "t"⟩ [{ name := "Id", type := .bigint },
        { name := "Note", type := .varchar }],
      .createIndex ⟨"main", "t"⟩ "byNote" ["NOTE", "id"] false].foldlM Catalog.apply
        .empty = .ok ledgerCatalog := by rfl
  -- A second index of this name is refused.
  have hrefused : ledgerCatalog.createIndex ⟨"main", "t"⟩ "BYNOTE" ["Id"] true =
      .error (.duplicateIndex "BYNOTE") := by rfl
  have hreachable := (Catalog.Reachable.empty.foldlM hmade).createIndex ⟨"main", "t"⟩ "BYNOTE"
    ["Id"] true
  rw [hrefused] at hreachable
  exact ⟨hreachable, Catalog.coherent_of_reachable hreachable⟩

end QueryPlanner
