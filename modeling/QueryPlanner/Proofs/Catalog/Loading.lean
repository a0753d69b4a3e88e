import QueryPlanner.Catalog.Snapshot
import QueryPlanner.Session.Apply

/-!
# Loading and declaring

A catalog that a snapshot describes comes about in two ways.  Loading walks down the document and
calls the catalog for every schema, table and index that it meets.  Declaring sends the session
statements, which name their tables with the schema in front, and the session works out what each
of them asks of its catalog.

Both ways ask for the changes that the snapshot stands for, in the order of the document: loading by
`applyAll_changes`, declaring because a statement is its change under every default schema
(`map_change?_statements`).  One statement makes its change in a session (`apply_of_change?`,
`execute_of_change?`), so a run of statements makes a run of changes, or stops where it is refused
(`foldlM_of_change?`).

Main statement: `loading_eq_declaring`.
-/

namespace QueryPlanner

variable {α β γ ε : Type}

/-- Going through the parts of a list of lists is going through each of the lists. -/
theorem foldlM_flatMap (f : γ → β → Except ε γ) (g : α → List β) (l : List α) (c : γ) :
    (l.flatMap g).foldlM f c = l.foldlM (fun c a => (g a).foldlM f c) c := by
  induction l generalizing c with
  | nil => rfl
  | cons a l ih =>
      rw [List.flatMap_cons, List.foldlM_append, List.foldlM_cons]
      exact bind_congr ih

/-! ## Walking down a snapshot -/

/-- Adds a table of a snapshot and then its indexes. -/
def TableDeclaration.loadInto (schema : String) (c : Catalog) (t : TableDeclaration) :
    Except CatalogError Catalog := do
  let name : TableName := ⟨schema, t.name⟩
  let columns ← t.columns.mapM ColumnDefinition.column
  let c ← c.createTable name columns
  t.indexes.foldlM (fun c i => c.createIndex name i.name i.columns i.unique) c

/-- Adds a schema of a snapshot and then its tables. -/
def SchemaDeclaration.loadInto (c : Catalog) (s : SchemaDeclaration) :
    Except CatalogError Catalog := do
  let c ← c.createSchema s.name
  s.tables.foldlM (TableDeclaration.loadInto s.name) c

namespace Snapshot

/-- The catalog that loading a snapshot gives. -/
def load (snapshot : Snapshot) : Except CatalogError Catalog :=
  snapshot.schemas.foldlM SchemaDeclaration.loadInto .empty

theorem applyAll_tableChanges (schema : String) (c : Catalog) (t : TableDeclaration) :
    c.applyAll (tableChanges schema t) = t.loadInto schema c := by
  unfold Catalog.applyAll tableChanges TableDeclaration.loadInto
  dsimp only
  rw [List.foldlM_cons, Catalog.apply, bind_assoc]
  refine bind_congr fun columns => bind_congr fun c => ?_
  rw [List.foldlM_map]
  rfl

/-- Loading makes the changes that the snapshot stands for. -/
theorem applyAll_changes (snapshot : Snapshot) :
    Catalog.empty.applyAll snapshot.changes = snapshot.load := by
  unfold Catalog.applyAll changes load
  rw [foldlM_flatMap]
  congr 1
  funext c schema
  rw [List.foldlM_cons]
  refine bind_congr fun c => ?_
  rw [foldlM_flatMap]
  congr 1
  funext c t
  exact applyAll_tableChanges schema.name c t

end Snapshot

/-! ## Statements for a snapshot -/

/-- The statements that declare a table of a schema and its indexes. -/
def TableDeclaration.statements (schema : String) (t : TableDeclaration) : List Statement :=
  let name : ObjectName := { schema := some schema, name := t.name }
  .createTable name t.columns ::
    t.indexes.map fun i => .createIndex i.name name i.columns i.unique

/-- The statements that declare a schema and its tables. -/
def SchemaDeclaration.statements (s : SchemaDeclaration) : List Statement :=
  .createSchema s.name :: s.tables.flatMap (TableDeclaration.statements s.name)

namespace Snapshot

/-- The statements that declare what a snapshot lists, in its order. -/
def statements (snapshot : Snapshot) : List Statement :=
  snapshot.schemas.flatMap SchemaDeclaration.statements

/-- One statement for each change, whatever the default schema is. -/
theorem map_change?_statements (snapshot : Snapshot) (defaultSchema : String) :
    snapshot.statements.map (·.change? defaultSchema) = snapshot.changes.map some := by
  have htable (schema : String) (t : TableDeclaration) :
      (t.statements schema).map (·.change? defaultSchema) =
        (tableChanges schema t).map some := by
    unfold TableDeclaration.statements tableChanges
    rw [List.map_cons, List.map_cons, List.map_map, List.map_map]
    rfl
  unfold statements changes
  rw [List.map_flatMap, List.map_flatMap]
  congr 1
  funext schema
  unfold SchemaDeclaration.statements
  rw [List.map_cons, List.map_cons, List.map_flatMap, List.map_flatMap]
  simp only [htable]
  rfl

end Snapshot

/-! ## Statements in a session -/

namespace Session

/-- The session with the catalog that calls have made, or the error that they ended in. -/
def withCatalog (s : Session) : Except CatalogError Catalog → Except SessionError Session
  | .ok catalog => .ok { s with catalog }
  | .error e => .error (.catalog e)

variable {s : Session} {statement : Statement} {change : Change}

theorem category_of_change? {defaultSchema : String}
    (h : statement.change? defaultSchema = some change) : statement.category = .definition := by
  cases statement <;> first | rfl | cases h

theorem declare_of_change? (h : statement.change? s.defaultSchema = some change) :
    s.declare statement = s.withCatalog (s.catalog.apply change) := by
  unfold declare changeCatalog
  simp only [h]
  cases s.catalog.apply change <;> rfl

/-- A statement makes the change that it declares, and nothing else. -/
theorem apply_of_change? (h : statement.change? s.defaultSchema = some change) :
    s.apply statement [] = s.withCatalog (s.catalog.apply change) := by
  unfold apply
  rw [category_of_change? h]
  exact declare_of_change? h

theorem execute_of_change? (h : statement.change? s.defaultSchema = some change) :
    Prod.snd <$> s.execute statement [] = s.withCatalog (s.catalog.apply change) := by
  unfold execute compile
  rw [category_of_change? h, ← apply_of_change? h]
  dsimp only
  cases s.apply statement [] <;> rfl

/-- A run of statements makes the run of changes that they declare, if one statement makes its
change. -/
theorem foldlM_of_change? {step : Session → Statement → Except SessionError Session}
    (hstep : ∀ (s : Session) {statement change},
      statement.change? s.defaultSchema = some change →
        step s statement = s.withCatalog (s.catalog.apply change))
    (s : Session) {statements : List Statement} {changes : List Change}
    (h : statements.map (·.change? s.defaultSchema) = changes.map some) :
    statements.foldlM step s = s.withCatalog (s.catalog.applyAll changes) := by
  induction changes generalizing s statements with
  | nil =>
      rw [List.map_nil, List.map_eq_nil_iff] at h
      rw [h]
      rfl
  | cons change changes ih =>
      obtain ⟨statement, rest, rfl, hchange, hrest⟩ := List.map_eq_cons_iff.1 h
      unfold Catalog.applyAll
      rw [List.foldlM_cons, List.foldlM_cons, hstep s hchange]
      cases s.catalog.apply change with
      | error e => rfl
      -- the default schema is the one of before, so the rest declares the rest of the changes
      | ok catalog => exact ih { s with catalog } hrest

end Session

/-- Loading a snapshot gives the catalog that its statements, executed or applied one after the
other, make of the empty catalog of a session, or it is refused with the error that the first
refused statement gives.  The default schema and the views of the session do not matter.  A text
that is a snapshot is loaded as this snapshot. -/
theorem Catalog.loading_eq_declaring :
    (∀ (snapshot : Snapshot) (defaultSchema : String) (views : Views),
      let start : Session := { catalog := .empty, defaultSchema, views }
      Catalog.ofSnapshot snapshot = snapshot.load ∧
        snapshot.statements.foldlM (fun s statement => Prod.snd <$> s.execute statement []) start =
          start.withCatalog (Catalog.ofSnapshot snapshot) ∧
        snapshot.statements.foldlM (fun s statement => s.apply statement []) start =
          start.withCatalog (Catalog.ofSnapshot snapshot)) ∧
      ∀ text, Catalog.ofText text =
        match Snapshot.ofText? text with
        | some snapshot => snapshot.load
        | none => .error (.malformed .notADocument) := by
  refine ⟨fun snapshot defaultSchema views => ?_, fun text => ?_⟩
  · intro start
    have hstatements := snapshot.map_change?_statements start.defaultSchema
    refine ⟨snapshot.applyAll_changes, ?_, ?_⟩
    · exact Session.foldlM_of_change? (fun _ => Session.execute_of_change?) start hstatements
    · exact Session.foldlM_of_change? (fun _ => Session.apply_of_change?) start hstatements
  · unfold Catalog.ofText
    cases Snapshot.ofText? text with
    | none => rfl
    | some snapshot => exact snapshot.applyAll_changes

end QueryPlanner
