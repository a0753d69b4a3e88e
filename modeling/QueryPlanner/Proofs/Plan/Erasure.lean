import QueryPlanner.Proofs.Binding.Erasure
import QueryPlanner.Proofs.Catalog.Ownership
import QueryPlanner.Proofs.Plan.Reading

/-!
# Plans of sessions with changed tables

Where a change of tables changes the access paths to them in a known way, it changes the operators
of every statement in this way and nothing else of their plans.  The limits of queries never get
into the operators.

Main statement: `compileRows_erase`.
-/

namespace QueryPlanner

namespace Operator

mutual

/-- The tree with other operators in the place of scans of indexes. -/
def mapScans (scan : KeyRange → Operator) : Operator → Operator
  | .tableScan table => .tableScan table
  | .indexScan range => scan range
  | .values rows => .values rows
  | .filter predicate input => .filter predicate (input.mapScans scan)
  | .product inputs => .product (mapScansInputs scan inputs)
  | .project results input => .project results (input.mapScans scan)
  | .sort order input => .sort order (input.mapScans scan)
  | .insert table targets input => .insert table targets (input.mapScans scan)
  | .update table assignments input => .update table assignments (input.mapScans scan)
  | .delete table input => .delete table (input.mapScans scan)

def mapScansInputs (scan : KeyRange → Operator) : List Operator → List Operator
  | [] => []
  | input :: rest => input.mapScans scan :: mapScansInputs scan rest

end

variable (scan : KeyRange → Operator)

theorem mapScansInputs_eq_map (inputs : List Operator) :
    mapScansInputs scan inputs = inputs.map (mapScans scan) := by
  induction inputs with
  | nil => rfl
  | cons input rest ih => rw [mapScansInputs, ih, List.map_cons]

mutual

theorem mapScans_indexScan : ∀ op : Operator, op.mapScans .indexScan = op
  | .tableScan _ => rfl
  | .indexScan _ => rfl
  | .values _ => rfl
  | .filter _ input => by rw [mapScans, mapScans_indexScan input]
  | .product inputs => by rw [mapScans, mapScansInputs_indexScan inputs]
  | .project _ input => by rw [mapScans, mapScans_indexScan input]
  | .sort _ input => by rw [mapScans, mapScans_indexScan input]
  | .insert _ _ input => by rw [mapScans, mapScans_indexScan input]
  | .update _ _ input => by rw [mapScans, mapScans_indexScan input]
  | .delete _ input => by rw [mapScans, mapScans_indexScan input]

theorem mapScansInputs_indexScan : ∀ inputs, mapScansInputs .indexScan inputs = inputs
  | [] => rfl
  | input :: rest => by
      rw [mapScansInputs, mapScans_indexScan input, mapScansInputs_indexScan rest]

end

theorem mapScans_combine (inputs : List Operator) :
    (combine inputs).mapScans scan = combine (inputs.map (mapScans scan)) := by
  cases inputs with
  | nil => rfl
  | cons input rest =>
      cases rest with
      | nil => rfl
      | cons other rest =>
          show product (mapScansInputs scan (input :: other :: rest)) = product _
          rw [mapScansInputs_eq_map, List.map_cons]

theorem mapScans_restrict (predicate : Option BoundExpr) (input : Operator) :
    (restrict predicate input).mapScans scan = restrict predicate (input.mapScans scan) := by
  cases predicate <;> rfl

theorem mapScans_arrange (order : List BoundOrderItem) (input : Operator) :
    (arrange order input).mapScans scan = arrange order (input.mapScans scan) := by
  unfold arrange
  split <;> rfl

end Operator

variable (e : Erasure) (scan : KeyRange → Operator)

/-- A change of a table changes the access paths to it as told. -/
def Erasure.FitsTable (t : Table) : Prop :=
  ∀ source conjuncts, (e.table t).access source conjuncts =
    (t.access source conjuncts).map (Operator.mapScans scan)

/-! ## Targets -/

namespace Table

variable (t : Table)

theorem targetType_erase : (e.table t).targetType = t.targetType := by
  funext target
  unfold targetType
  rw [e.columns_table]

theorem target_erase : (e.table t).target = t.target := by
  funext name
  unfold target column?
  rw [e.columns_table, e.name_table]

theorem targets_erase (before : List TargetColumn) (names : List String) :
    (e.table t).targets before names = t.targets before names := by
  induction names generalizing before with
  | nil => rfl
  | cons name rest ih =>
      unfold targets
      simp only [target_erase, ih]

theorem insertTargets_erase (columns : List String) :
    (e.table t).insertTargets columns = t.insertTargets columns := by
  unfold insertTargets allTargets
  rw [targets_erase, e.columns_table]

theorem valueRow_erase (targets : List TargetColumn) :
    (e.table t).valueRow targets = t.valueRow targets := by
  funext row
  unfold valueRow
  rw [targetType_erase]

theorem checkResults_erase (targets : List TargetColumn) (results : List ResultColumn) :
    (e.table t).checkResults targets results = t.checkResults targets results := by
  unfold checkResults
  rw [targetType_erase]

theorem filteredAccess_erase {t : Table} (ht : e.FitsTable scan t) (scope : Scope)
    (predicate : Option Expr) :
    (e.table t).filteredAccess (Scope.erase e scope) predicate =
      Operator.mapScans scan <$> t.filteredAccess scope predicate := by
  cases predicate with
  | none =>
      unfold filteredAccess
      dsimp only
      rw [ht]
      cases t.access 0 [] <;> rfl
  | some predicate =>
      unfold filteredAccess
      dsimp only
      rw [Scope.bindExpr_erase, map_bind]
      congr 1
      funext predicate
      rw [map_bind]
      congr 1
      funext _
      rw [ht]
      cases t.access 0 predicate.conjuncts <;> rfl

end Table

/-! ## Queries -/

/-- Sources give changed operators, if each of them does. -/
theorem sourceOperators_erase {sources : List BoundSource}
    (h : ∀ source ∈ sources, ∀ conjuncts number, (source.erase e).operator conjuncts number =
      (source.operator conjuncts number).map (Operator.mapScans scan))
    (conjuncts : List BoundExpr) (number : Nat) :
    sourceOperators conjuncts number (eraseSources e sources) =
      (sourceOperators conjuncts number sources).map (List.map (Operator.mapScans scan)) := by
  induction sources generalizing number with
  | nil => rfl
  | cons source rest ih =>
      rw [List.forall_mem_cons] at h
      rw [eraseSources, sourceOperators, sourceOperators, h.1, ih h.2]
      cases source.operator conjuncts number with
      | error error => rfl
      | ok op => cases sourceOperators conjuncts (number + 1) rest <;> rfl

theorem BoundSelect.operator_erase {b : BoundSelect}
    (h : ∀ source ∈ b.sources, ∀ conjuncts number, (source.erase e).operator conjuncts number =
      (source.operator conjuncts number).map (Operator.mapScans scan)) :
    (b.erase e).operator = b.operator.map (Operator.mapScans scan) := by
  obtain ⟨sources, results, predicate, order, offset, limit⟩ := b
  rw [BoundSelect.erase, BoundSelect.operator, BoundSelect.operator,
    sourceOperators_erase e scan h]
  cases sourceOperators (predicate.toList.flatMap BoundExpr.conjuncts) 0 sources with
  | error error => rfl
  | ok inputs =>
      have htree : (Operator.project results (.arrange order (.restrict predicate
          (.combine inputs)))).mapScans scan =
          .project results (.arrange order (.restrict predicate
            (.combine (inputs.map (Operator.mapScans scan))))) := by
        rw [Operator.mapScans, Operator.mapScans_arrange, Operator.mapScans_restrict,
          Operator.mapScans_combine]
      exact congrArg Except.ok htree.symm

theorem BoundSelect.resolve_erase (b : BoundSelect) : (b.erase e).resolve = b.resolve := by
  cases b
  rfl

namespace Session

variable {s : Session} (hs : ∀ t ∈ s.catalog.tables, e.FitsTable scan t)

theorem mem_tables_of_bindTable {name : ObjectName} {t : Table}
    (h : s.bindTable name = .ok t) : t ∈ s.catalog.tables :=
  Catalog.mem_tables_of_table? (table?_of_bindTable h)

include hs

/-- A source gives a changed operator, by induction on the views that are not being expanded. -/
theorem operator_erase_of_bindSource (expanding : List String) :
    ∀ r source, s.bindSource expanding r = .ok source → ∀ conjuncts number,
      (source.erase e).operator conjuncts number =
        (source.operator conjuncts number).map (Operator.mapScans scan) := by
  induction expanding using s.expansion_induction with
  | inside expanding ih =>
      intro r source hsource conjuncts number
      obtain ⟨-, t, ht, rfl⟩ | ⟨w, hview, hkey, b, hb, hsource⟩ := bindSource_eq_ok hsource
      · exact hs t (mem_tables_of_bindTable ht) number conjuncts
      · have horigin := View.origin_of_source hsource
        -- The sources of the view are expanded with one view fewer left.
        obtain ⟨aliasName, origin, columns⟩ := source
        subst horigin
        have hsources : ∀ source ∈ b.sources, ∀ conjuncts number,
            (source.erase e).operator conjuncts number =
              (source.operator conjuncts number).map (Operator.mapScans scan) := by
          intro source hmem
          obtain ⟨r, -, hr⟩ := exists_of_mem_mapM (Select.bindWith_eq_ok hb).sources hmem
          exact ih w (mem_views_of_view? hview) hkey r source hr
        have hquery := BoundSelect.operator_erase e scan hsources
        rw [BoundSource.erase, BoundSource.operator, BoundSource.operator, SourceOrigin.erase,
          SourceOrigin.operator, SourceOrigin.operator, BoundSelect.resolve_erase, hquery]
        cases b.resolve.runOn [] <;> rfl

theorem operator_erase_of_bindSelect {q : Select} {b : BoundSelect} (h : s.bindSelect q = .ok b) :
    (b.erase e).operator = b.operator.map (Operator.mapScans scan) := by
  refine BoundSelect.operator_erase e scan fun source hmem => ?_
  obtain ⟨r, -, hr⟩ := exists_of_mem_mapM (Select.bindWith_eq_ok h).sources hmem
  exact operator_erase_of_bindSource e scan hs [] r source hr

/-! ## Statements -/

omit hs in
theorem compileAssignment_erase (t : Table) (scope : Scope) :
    compileAssignment (e.table t) (Scope.erase e scope) = compileAssignment t scope := by
  funext a
  unfold compileAssignment
  rw [Table.target_erase, Scope.bindExpr_erase, Table.targetType_erase]

theorem compileSelect_erase (q : Select) :
    (s.erase e).compileSelect q.unlimited =
      (fun p => (p.1.mapScans scan, p.2)) <$> s.compileSelect q := by
  unfold compileSelect
  rw [bindSelect_erase]
  cases h : s.bindSelect q with
  | error error => rfl
  | ok b =>
      show (do
        let results ← (b.erase e).resolve
        return (← Typing.ofExcept (b.erase e).operator, results)) = _ <$> (do
          let results ← b.resolve
          return (← Typing.ofExcept b.operator, results))
      rw [BoundSelect.resolve_erase, operator_erase_of_bindSelect e scan hs h, map_bind]
      congr 1
      funext results
      cases b.operator <;> rfl

theorem compileInsertSource_erase (t : Table) (targets : List TargetColumn)
    (source : InsertSource) :
    (s.erase e).compileInsertSource (e.table t) targets source.unlimited =
      Operator.mapScans scan <$> s.compileInsertSource t targets source := by
  cases source with
  | values rows =>
      unfold compileInsertSource InsertSource.unlimited
      dsimp only
      rw [Table.valueRow_erase, map_bind]
      rfl
  | select q =>
      unfold compileInsertSource InsertSource.unlimited
      dsimp only
      rw [compileSelect_erase e scan hs, map_bind, bind_map_left]
      congr 1
      funext p
      dsimp only
      rw [Table.checkResults_erase]
      cases checkWidth targets.length p.2.length with
      | error error => rfl
      | ok _ => cases t.checkResults targets p.2 <;> rfl

theorem compileInsert_erase (table : ObjectName) (columns : List String) (source : InsertSource) :
    (s.erase e).compileInsert table columns source.unlimited =
      Operator.mapScans scan <$> s.compileInsert table columns source := by
  rw [compileInsert_eq, compileInsert_eq, bindTable_erase]
  cases s.bindTable table with
  | error error => rfl
  | ok t =>
      show (do
        let targets ← Typing.ofExcept ((e.table t).insertTargets columns)
        _) = _ <$> (do
          let targets ← Typing.ofExcept (t.insertTargets columns)
          _)
      rw [Table.insertTargets_erase, e.name_table, map_bind]
      congr 1
      funext targets
      rw [compileInsertSource_erase e scan hs, bind_map_left, map_bind]
      rfl

theorem compileUpdate_erase (table : ObjectName) (assignments : List Assignment)
    (predicate : Option Expr) :
    (s.erase e).compileUpdate table assignments predicate =
      Operator.mapScans scan <$> s.compileUpdate table assignments predicate := by
  unfold compileUpdate
  rw [bindTable_erase]
  cases h : s.bindTable table with
  | error error => rfl
  | ok t =>
      have ht := hs t (mem_tables_of_bindTable h)
      have haccess := Table.filteredAccess_erase e scan ht [.ofTable t none] predicate
      have hassignment := compileAssignment_erase e t [.ofTable t none]
      -- The scope of the changed table is the changed scope of the table.
      rw [Scope.erase, List.map_singleton, BoundSource.ofTable_erase] at haccess hassignment
      show (assignments.mapM (compileAssignment (e.table t) _) >>= fun bound =>
        (e.table t).filteredAccess _ predicate >>= fun op =>
          pure (Operator.update (e.table t).name bound op)) =
        _ <$> (assignments.mapM (compileAssignment t _) >>= fun bound =>
          t.filteredAccess _ predicate >>= _)
      rw [hassignment, haccess, e.name_table, map_bind]
      congr 1
      funext bound
      rw [bind_map_left, map_bind]
      rfl

theorem compileDelete_erase (table : ObjectName) (predicate : Option Expr) :
    (s.erase e).compileDelete table predicate =
      Operator.mapScans scan <$> s.compileDelete table predicate := by
  unfold compileDelete
  rw [bindTable_erase]
  cases h : s.bindTable table with
  | error error => rfl
  | ok t =>
      have ht := hs t (mem_tables_of_bindTable h)
      have haccess := Table.filteredAccess_erase e scan ht [.ofTable t none] predicate
      rw [Scope.erase, List.map_singleton, BoundSource.ofTable_erase] at haccess
      show ((e.table t).filteredAccess _ predicate >>= fun op =>
        pure (Operator.delete (e.table t).name op)) = _ <$> (t.filteredAccess _ predicate >>= _)
      rw [haccess, e.name_table, bind_map_left, map_bind]
      rfl

/-- A session with changed tables and views without limits gives a statement without limits changed
operators, and its results as they were. -/
theorem compileRows_erase (statement : Statement) :
    (s.erase e).compileRows statement.unlimited =
      (fun p => (p.1.mapScans scan, p.2)) <$> s.compileRows statement := by
  cases statement with
  | select q => exact compileSelect_erase e scan hs q
  | insert table columns source =>
      show ((s.erase e).compileInsert table columns source.unlimited >>= _) =
        _ <$> (s.compileInsert table columns source >>= _)
      rw [compileInsert_erase e scan hs, bind_map_left, map_bind]
      rfl
  | update table assignments predicate =>
      show ((s.erase e).compileUpdate table assignments predicate >>= _) =
        _ <$> (s.compileUpdate table assignments predicate >>= _)
      rw [compileUpdate_erase e scan hs, bind_map_left, map_bind]
      rfl
  | delete table predicate =>
      show ((s.erase e).compileDelete table predicate >>= _) =
        _ <$> (s.compileDelete table predicate >>= _)
      rw [compileDelete_erase e scan hs, bind_map_left, map_bind]
      rfl
  | _ => rfl

end Session

end QueryPlanner
