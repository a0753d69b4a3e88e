import QueryPlanner.Proofs.AccessPath.Exactness
import QueryPlanner.Proofs.Binding.Result

/-!
# How plans read tables

The operators of a query are fixed but for the access path to each table: one input for each
source, a filter that holds the whole predicate if there is one, then the sort order and the
results.  The same is true of the views that the query reads, at any depth, and of the rows that a
change of rows reads.

Main statement: `gives_compileRows`, which also says that compiling fails for no reason that lies in
the choice of an access path.
-/

namespace QueryPlanner

/-! ## Reading one table -/

/-- An operator reads the rows of a table, through one of its indexes or without. -/
inductive Table.ReadBy (t : Table) : Operator → Prop where
  | scan : t.ReadBy (.tableScan t.name)
  | indexScan (range : KeyRange) (mem : range.index ∈ t.indexes) : t.ReadBy (.indexScan range)

/-- There always is an access path. -/
theorem Table.exists_access (t : Table) (source : Nat) (conjuncts : List BoundExpr) :
    ∃ op, t.access source conjuncts = .ok op ∧ t.ReadBy op := by
  obtain ⟨range, hrange⟩ : ∃ range, chooseRange t source conjuncts = .ok range :=
    ⟨_, chooseRange_eq t source conjuncts⟩
  unfold access
  rw [hrange]
  cases range with
  | none => exact ⟨_, rfl, .scan⟩
  | some range => exact ⟨_, rfl, .indexScan range (index_mem_of_chooseRange hrange)⟩

theorem Table.gives_access (t : Table) (source : Nat) (conjuncts : List BoundExpr) :
    Gives t.ReadBy (t.access source conjuncts) := by
  obtain ⟨op, hop, hreads⟩ := t.exists_access source conjuncts
  rw [hop]
  exact hreads

/-! ## Reading queries -/

mutual

/-- An operator reads the rows of a query, in which the views with the given names are being
expanded. -/
inductive Session.ReadsQuery (s : Session) : List String → Select → Operator → Prop where
  | query {expanding : List String} {q : Select} (b : BoundSelect) (inputs : List Operator)
      (binds : q.Binds (s.bindSource expanding) b)
      (reads : s.ReadsSources expanding q.sources inputs) :
      s.ReadsQuery expanding q
        (.project b.results (.arrange b.order (.restrict b.predicate (.combine inputs))))

/-- An operator reads the rows of the table or view that a reference stands for. -/
inductive Session.ReadsSource (s : Session) : List String → TableRef → Operator → Prop where
  | table {expanding : List String} {r : TableRef} {t : Table} {op : Operator}
      (isTable : s.view? r.name = none) (binds : s.bindTable r.name = .ok t)
      (reads : t.ReadBy op) : s.ReadsSource expanding r op
  | view {expanding : List String} {r : TableRef} {w : View} {op : Operator}
      (isView : s.view? r.name = some w)
      (reads : s.ReadsQuery (Named.key w :: expanding) w.query op) :
      s.ReadsSource expanding r op

inductive Session.ReadsSources (s : Session) :
    List String → List TableRef → List Operator → Prop where
  | nil {expanding : List String} : s.ReadsSources expanding [] []
  | cons {expanding : List String} {r : TableRef} {op : Operator} {rest : List TableRef}
      {ops : List Operator} (first : s.ReadsSource expanding r op)
      (others : s.ReadsSources expanding rest ops) :
      s.ReadsSources expanding (r :: rest) (op :: ops)

end

/-- The names of the results that an operator returns. -/
def Operator.resultNames : Operator → List String
  | .project results _ => results.map (·.name)
  | _ => []

theorem View.origin_of_source {w : View} {aliasName : Option String} {q : BoundSelect}
    {source : BoundSource} (h : w.source aliasName q = .ok source) :
    source.origin = .view w.name q := by
  obtain ⟨-, types, -, rfl⟩ := View.source_eq_ok_iff.1 h
  rfl

namespace Session

variable {s : Session} {expanding : List String}

/-- The operators of sources read these, if the operator of each source does. -/
theorem gives_sourceOperators
    (h : ∀ r source, s.bindSource expanding r = .ok source → ∀ conjuncts number,
      Gives (s.ReadsSource expanding r) (source.operator conjuncts number))
    {refs : List TableRef} {sources : List BoundSource}
    (hsources : refs.mapM (s.bindSource expanding) = .ok sources) (conjuncts : List BoundExpr)
    (number : Nat) :
    Gives (s.ReadsSources expanding refs) (sourceOperators conjuncts number sources) := by
  induction refs generalizing sources number with
  | nil =>
      cases hsources
      exact .nil
  | cons r rest ih =>
      rw [List.mapM_cons] at hsources
      obtain ⟨source, hsource, hsources⟩ := bind_eq_ok.1 hsources
      obtain ⟨others, hothers, hsources⟩ := bind_eq_ok.1 hsources
      cases hsources
      rw [sourceOperators]
      refine (h r source hsource conjuncts number).bind fun op hop => ?_
      exact (ih hothers (number + 1)).bind fun ops hops => .cons hop hops

theorem gives_operator_of_sources
    (h : ∀ r source, s.bindSource expanding r = .ok source → ∀ conjuncts number,
      Gives (s.ReadsSource expanding r) (source.operator conjuncts number))
    {q : Select} {b : BoundSelect} (hb : q.bindWith (s.bindSource expanding) = .ok b) :
    Gives (s.ReadsQuery expanding q) b.operator := by
  have hbinds := Select.bindWith_eq_ok hb
  have hinputs := gives_sourceOperators h hbinds.sources
    (b.predicate.toList.flatMap BoundExpr.conjuncts) 0
  obtain ⟨sources, results, predicate, order, offset, limit⟩ := b
  rw [BoundSelect.operator]
  exact hinputs.bind fun inputs hreads => .query _ inputs hbinds hreads

theorem resultNames_of_operator {b : BoundSelect} {op : Operator} (h : b.operator = .ok op) :
    op.resultNames = b.results.map (·.name) := by
  obtain ⟨sources, results, predicate, order, offset, limit⟩ := b
  rw [BoundSelect.operator] at h
  obtain ⟨inputs, -, h⟩ := bind_eq_ok.1 h
  cases h
  rfl

/-- The operator of a source reads what the source stands for, by induction on the views that are
not being expanded. -/
theorem gives_operator_of_bindSource (s : Session) (expanding : List String) :
    ∀ r source, s.bindSource expanding r = .ok source → ∀ conjuncts number,
      Gives (s.ReadsSource expanding r) (source.operator conjuncts number) := by
  induction expanding using s.expansion_induction with
  | inside expanding ih =>
      intro r source hsource conjuncts number
      obtain ⟨hview, t, ht, rfl⟩ | ⟨w, hview, hkey, b, hb, hsource⟩ := bindSource_eq_ok hsource
      · exact (t.gives_access number conjuncts).imp fun op hop => .table hview ht hop
      · have horigin := View.origin_of_source hsource
        obtain ⟨aliasName, origin, columns⟩ := source
        subst horigin
        rw [BoundSource.operator, SourceOrigin.operator]
        refine Gives.discard (Typing.rules_gives.resolveQuery (q := b) (fun _ _ => trivial) []) ?_
        have hquery := gives_operator_of_sources (ih w (mem_views_of_view? hview) hkey) hb
        exact hquery.imp fun op hop => .view hview hop

end Session

/-! ## Carrying statements out -/

/-- An operator reads the rows of a table that satisfy a predicate. -/
inductive Table.FilteredBy (t : Table) (scope : Scope) : Option Expr → Operator → Prop where
  | all {op : Operator} (reads : t.ReadBy op) : t.FilteredBy scope none op
  | filter {e : Expr} {op : Operator} (predicate : BoundExpr)
      (binds : scope.bindExpr e = .ok predicate) (reads : t.ReadBy op) :
      t.FilteredBy scope (some e) (.filter predicate op)

/-- An operator does what a statement says with the rows that it says this of. -/
inductive Session.CarriesOut (s : Session) : Statement → Operator → Prop where
  | select {q : Select} {op : Operator} (reads : s.ReadsQuery [] q op) :
      s.CarriesOut (.select q) op
  | insertValues {table : ObjectName} {columns : List String} {rows : List (List Expr)}
      (name : TableName) (targets : List TargetColumn) (bound : List (List BoundExpr)) :
      s.CarriesOut (.insert table columns (.values rows)) (.insert name targets (.values bound))
  | insertSelect {table : ObjectName} {columns : List String} {q : Select} {op : Operator}
      (name : TableName) (targets : List TargetColumn) (reads : s.ReadsQuery [] q op) :
      s.CarriesOut (.insert table columns (.select q)) (.insert name targets op)
  | update {table : ObjectName} {assignments : List Assignment} {predicate : Option Expr}
      {op : Operator} (t : Table) (bound : List (TargetColumn × BoundExpr))
      (binds : s.bindTable table = .ok t)
      (reads : t.FilteredBy [.ofTable t none] predicate op) :
      s.CarriesOut (.update table assignments predicate) (.update t.name bound op)
  | delete {table : ObjectName} {predicate : Option Expr} {op : Operator} (t : Table)
      (binds : s.bindTable table = .ok t)
      (reads : t.FilteredBy [.ofTable t none] predicate op) :
      s.CarriesOut (.delete table predicate) (.delete t.name op)

/-! ## Compiling statements -/

/-- The columns that an insertion writes. -/
def Table.insertTargets (t : Table) (columns : List String) :
    Except PlanError (List TargetColumn) :=
  if columns.isEmpty then .ok t.allTargets else t.targets [] columns

/-- An operator gives the rows to insert, with a value for each target. -/
inductive Session.Inserts (s : Session) (targets : List TargetColumn) :
    InsertSource → Operator → Prop where
  | values {rows : List (List Expr)} (bound : List (List BoundExpr))
      (binds : ∀ row ∈ bound, row.length = targets.length ∧
        ∀ value ∈ row, ∃ e, Scope.bindExpr [] e = .ok value) :
      s.Inserts targets (.values rows) (.values bound)
  | select {q : Select} {op : Operator} (reads : s.ReadsQuery [] q op)
      (width : op.resultNames.length = targets.length) : s.Inserts targets (.select q) op

/-- What compiling the rows of a statement gives. -/
inductive Session.Compiles (s : Session) : Statement → Operator × List ResultColumn → Prop where
  | select {q : Select} (op : Operator) (results : List ResultColumn) (reads : s.ReadsQuery [] q op)
      (names : results.map (·.name) = op.resultNames) : s.Compiles (.select q) (op, results)
  | insert {table : ObjectName} {columns : List String} {source : InsertSource} (t : Table)
      (targets : List TargetColumn) (op : Operator) (binds : s.bindTable table = .ok t)
      (writes : t.insertTargets columns = .ok targets) (inserts : s.Inserts targets source op) :
      s.Compiles (.insert table columns source) (.insert t.name targets op, [])
  | update {table : ObjectName} {assignments : List Assignment} {predicate : Option Expr}
      (t : Table) (bound : List (TargetColumn × BoundExpr)) (op : Operator)
      (binds : s.bindTable table = .ok t)
      (assigns : ∀ a ∈ bound, (∃ name, t.target name = .ok a.1) ∧
        ∃ e, Scope.bindExpr [.ofTable t none] e = .ok a.2)
      (reads : t.FilteredBy [.ofTable t none] predicate op) :
      s.Compiles (.update table assignments predicate) (.update t.name bound op, [])
  | delete {table : ObjectName} {predicate : Option Expr} (t : Table) (op : Operator)
      (binds : s.bindTable table = .ok t)
      (reads : t.FilteredBy [.ofTable t none] predicate op) :
      s.Compiles (.delete table predicate) (.delete t.name op, [])

/-- The operators of a statement carry it out. -/
theorem Session.Compiles.carriesOut {s : Session} {statement : Statement}
    {rows : Operator × List ResultColumn} (h : s.Compiles statement rows) :
    s.CarriesOut statement rows.1 := by
  cases h with
  | select op results reads names => exact .select reads
  | insert t targets op binds writes inserts =>
      cases inserts with
      | values bound binds => exact .insertValues t.name targets bound
      | select reads width => exact .insertSelect t.name targets reads
  | update t bound op binds assigns reads => exact .update t bound binds reads
  | delete t op binds reads => exact .delete t binds reads

namespace Table

theorem gives_filteredAccess (t : Table) (scope : Scope) (predicate : Option Expr) :
    Typing.Gives (t.FilteredBy scope predicate) (t.filteredAccess scope predicate) := by
  cases predicate with
  | none => exact .ofExcept ((t.gives_access 0 []).imp fun op hop => .all hop)
  | some e =>
      refine (Typing.Gives.ofExcept (scope.gives_bindExpr e).and_eq).bind fun predicate he => ?_
      refine (Typing.rules_gives.resolvePredicate fun _ _ => trivial).bind fun _ _ => ?_
      refine (Typing.Gives.ofExcept (t.gives_access 0 predicate.conjuncts)).bind fun op hop => ?_
      exact .pure (.filter predicate he.1 hop)

theorem gives_target (t : Table) (name : String) : Gives (fun _ => True) (t.target name) := by
  unfold target
  split
  next => trivial
  next => exact nofun

theorem gives_targets (t : Table) (before : List TargetColumn) (names : List String) :
    Gives (fun _ => True) (t.targets before names) := by
  induction names generalizing before with
  | nil => trivial
  | cons name rest ih =>
      refine (t.gives_target name).bind fun target _ => ?_
      dsimp only
      split
      · exact nofun
      · exact ih _

theorem gives_insertTargets (t : Table) (columns : List String) :
    Gives (fun _ => True) (t.insertTargets columns) := by
  unfold insertTargets
  split
  · trivial
  · exact t.gives_targets [] columns

theorem gives_checkWidth (targets values : Nat) :
    Gives (fun _ => targets = values) (checkWidth targets values) := by
  unfold checkWidth
  split
  next h => exact h
  next => exact nofun

/-- A row has a value for each target, and none of them refers to a column. -/
theorem gives_valueRow (t : Table) (targets : List TargetColumn) (row : List Expr) :
    Typing.Gives (fun bound => bound.length = targets.length ∧
        ∀ value ∈ bound, ∃ e, Scope.bindExpr [] e = .ok value)
      (t.valueRow targets row) := by
  refine (Typing.Gives.ofExcept (gives_checkWidth _ _)).bind fun _ hwidth => ?_
  have hvalue (pair : TargetColumn × Expr) : Typing.Gives
      (fun value => ∃ e, Scope.bindExpr [] e = .ok value) (do
        let bound ← .ofExcept (Scope.bindExpr [] pair.2)
        bound.resolveFor (t.targetType pair.1)
        return bound) := by
    refine (Typing.Gives.ofExcept (Scope.gives_bindExpr [] pair.2).and_eq).bind fun bound hb => ?_
    refine (Typing.rules_gives.resolveFor (fun _ _ => trivial) _).bind fun _ _ => ?_
    exact .pure ⟨pair.2, hb.1⟩
  have hlength := Typing.Gives.length_mapM (l := targets.zip row) fun pair _ => hvalue pair
  refine (hlength.and (Typing.Gives.mapM fun pair _ => hvalue pair)).imp fun bound hbound => ?_
  refine ⟨?_, hbound.2⟩
  rw [hbound.1, List.length_zip, ← hwidth, Nat.min_self]

theorem gives_checkResults (t : Table) (targets : List TargetColumn)
    (results : List ResultColumn) : Gives (fun _ => True) (t.checkResults targets results) := by
  refine Gives.forM fun (target, result) _ => ?_
  dsimp only
  split
  next =>
    split
    · trivial
    · exact nofun
  next => trivial

end Table

namespace Session

variable (s : Session)

theorem gives_compileSelect (q : Select) :
    Typing.Gives (fun p => s.ReadsQuery [] q p.1 ∧ p.2.map (·.name) = p.1.resultNames)
      (s.compileSelect q) := by
  refine (Typing.Gives.ofExcept (s.gives_bindSelect q).and_eq).bind fun b hb => ?_
  refine b.gives_resolve.bind fun results hresults => ?_
  have hop := gives_operator_of_sources (gives_operator_of_bindSource s []) hb.1
  refine (Typing.Gives.ofExcept hop.and_eq).bind fun op hop => .pure ⟨hop.2, ?_⟩
  rw [hresults, resultNames_of_operator hop.1]

theorem compileInsert_eq (table : ObjectName) (columns : List String) (source : InsertSource) :
    s.compileInsert table columns source = (do
      let t ← .ofExcept (s.bindTable table)
      let targets ← .ofExcept (t.insertTargets columns)
      return .insert t.name targets (← s.compileInsertSource t targets source)) := by
  unfold compileInsert Table.insertTargets
  congr 1
  funext t
  dsimp only
  split <;> rfl

theorem gives_compileInsertSource (t : Table) (targets : List TargetColumn)
    (source : InsertSource) :
    Typing.Gives (s.Inserts targets source) (s.compileInsertSource t targets source) := by
  cases source with
  | values rows =>
      refine (Typing.Gives.mapM fun row _ => t.gives_valueRow targets row).bind fun bound hb => ?_
      exact .pure (.values bound hb)
  | select q =>
      refine (s.gives_compileSelect q).bind fun (op, results) hp => ?_
      refine (Typing.Gives.ofExcept (Table.gives_checkWidth _ _)).bind fun _ hwidth => ?_
      refine (Typing.Gives.ofExcept (t.gives_checkResults _ _)).bind fun _ _ => ?_
      refine .pure (.select hp.1 ?_)
      rw [← hp.2, List.length_map, hwidth]

theorem gives_compileInsert (table : ObjectName) (columns : List String) (source : InsertSource) :
    Typing.Gives (fun op => s.Compiles (.insert table columns source) (op, []))
      (s.compileInsert table columns source) := by
  rw [compileInsert_eq]
  refine (Typing.Gives.ofExcept (s.gives_bindTable table).and_eq).bind fun t ht => ?_
  refine (Typing.Gives.ofExcept (t.gives_insertTargets columns).and_eq).bind fun targets hw => ?_
  refine (s.gives_compileInsertSource t targets source).bind fun op hop => ?_
  exact .pure (.insert t targets op ht.1 hw.1 hop)

/-- An assignment gives the column that it names its value. -/
theorem gives_compileAssignment (t : Table) (scope : Scope) (a : Assignment) :
    Typing.Gives (fun bound => t.target a.column = .ok bound.1 ∧
        scope.bindExpr a.value = .ok bound.2) (compileAssignment t scope a) := by
  refine (Typing.Gives.ofExcept (t.gives_target a.column).and_eq).bind fun target ht => ?_
  refine (Typing.Gives.ofExcept (scope.gives_bindExpr a.value).and_eq).bind fun value hv => ?_
  refine (Typing.rules_gives.resolveFor (fun _ _ => trivial) _).bind fun _ _ => ?_
  exact .pure ⟨ht.1, hv.1⟩

/-- The operators of a statement are bound as the statement says. -/
theorem gives_compileRows (statement : Statement) :
    Typing.Gives (s.Compiles statement) (s.compileRows statement) := by
  cases statement with
  | select q => exact (s.gives_compileSelect q).imp fun p hp => .select p.1 p.2 hp.1 hp.2
  | insert table columns source =>
      exact (s.gives_compileInsert table columns source).bind fun op hop => .pure hop
  | update table assignments predicate =>
      refine Typing.Gives.bind (P := fun op =>
        s.Compiles (.update table assignments predicate) (op, [])) ?_ fun op hop => .pure hop
      refine (Typing.Gives.ofExcept (s.gives_bindTable table).and_eq).bind fun t ht => ?_
      have hassignment : ∀ a ∈ assignments, Typing.Gives (fun bound =>
          (∃ name, t.target name = .ok bound.1) ∧
            ∃ e, Scope.bindExpr [.ofTable t none] e = .ok bound.2)
          (compileAssignment t [.ofTable t none] a) := fun a _ =>
        (gives_compileAssignment t [.ofTable t none] a).imp fun bound hbound =>
          ⟨⟨a.column, hbound.1⟩, a.value, hbound.2⟩
      refine (Typing.Gives.mapM hassignment).bind fun bound hbound => ?_
      refine (t.gives_filteredAccess _ predicate).bind fun op hop => ?_
      exact .pure (.update t bound op ht.1 hbound hop)
  | delete table predicate =>
      refine Typing.Gives.bind (P := fun op =>
        s.Compiles (.delete table predicate) (op, [])) ?_ fun op hop => .pure hop
      refine (Typing.Gives.ofExcept (s.gives_bindTable table).and_eq).bind fun t ht => ?_
      refine (t.gives_filteredAccess _ predicate).bind fun op hop => ?_
      exact .pure (.delete t op ht.1 hop)
  | _ => exact .throw nofun

end Session

end QueryPlanner
