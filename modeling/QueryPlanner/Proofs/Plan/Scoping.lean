import QueryPlanner.Proofs.Binding.Scoping
import QueryPlanner.Proofs.Plan.Reading
import QueryPlanner.Proofs.Session.Reachable

/-!
# Plans of statements are well scoped

The expressions of a plan refer to columns by the number of an input and a position in it.  Which
inputs these are is not written in the plan: they are found below the operator, behind filters and
sort orders.  The columns of an input are those of its table in the catalog, or what a view shows of
the results of its query.

`WellScoped` goes through a statement and its plan together, down to the bodies of views.  It says
that every reference is to a column of the inputs found there, and repeats what the catalog or the
view says of it.

Main statement: `Compiles.wellScoped`.
-/

namespace QueryPlanner

namespace Operator

/-- The table that a scan reads. -/
def table? : Operator → Option TableName
  | .tableScan table => some table
  | .indexScan range => some range.index.table
  | _ => none

/-- The operators that rows come from, behind filters and sort orders: the inputs of a product, or a
single operator.  The rows of `Values` come from nowhere. -/
def sources : Operator → List Operator
  | .filter _ input | .sort _ input => input.sources
  | .product inputs => inputs
  | .values _ => []
  | op => [op]

/-- The expressions between an operator and its sources refer to the given columns. -/
def FoundIn (columns : List (List SourceColumn)) : Operator → Prop
  | .filter predicate input => predicate.FoundIn columns ∧ input.FoundIn columns
  | .sort order input => (∀ item ∈ order, item.expr.FoundIn columns) ∧ input.FoundIn columns
  | .values rows => ∀ value ∈ rows.flatten, value.FoundIn columns
  | _ => True

end Operator

/-! ## Well-scoped operators -/

mutual

/-- An operator gives the results of a query that has some sources. -/
inductive Session.QueryScoped (s : Session) : List TableRef → Operator → Prop where
  | project {refs : List TableRef} (results : List ResultItem) (input : Operator)
      (columns : List (List SourceColumn))
      (sources : s.SourcesScoped refs input.sources columns)
      (found : ∀ item ∈ results, item.expr.FoundIn columns) (foundBelow : input.FoundIn columns) :
      s.QueryScoped refs (.project results input)

/-- An operator reads the table or the view that a reference stands for, and has these columns. -/
inductive Session.SourceScoped (s : Session) : TableRef → Operator → List SourceColumn → Prop where
  | table {r : TableRef} {t : Table} {op : Operator} (isTable : s.view? r.name = none)
      (binds : s.bindTable r.name = .ok t) (held : s.catalog.table? t.name = some t)
      (reads : op.table? = some t.name) : s.SourceScoped r op (t.columns.map Column.shown)
  | view {r : TableRef} {w : View} {results : List ResultItem} {input : Operator}
      {columns : List SourceColumn} (isView : s.view? r.name = some w)
      (query : s.QueryScoped w.query.sources (.project results input))
      (shows : w.Shows results columns) : s.SourceScoped r (.project results input) columns

inductive Session.SourcesScoped (s : Session) :
    List TableRef → List Operator → List (List SourceColumn) → Prop where
  | nil : s.SourcesScoped [] [] []
  | cons {r : TableRef} {op : Operator} {shown : List SourceColumn} {refs : List TableRef}
      {ops : List Operator} {columns : List (List SourceColumn)}
      (first : s.SourceScoped r op shown) (others : s.SourcesScoped refs ops columns) :
      s.SourcesScoped (r :: refs) (op :: ops) (shown :: columns)

end

/-- A target is a column of a table, under its declared name. -/
def Table.HasTarget (t : Table) (target : TargetColumn) : Prop :=
  ∃ c, t.columns[target.position]? = some c ∧ target.name = c.name

/-- Targets are columns of a table, none of them twice. -/
structure Table.HasTargets (t : Table) (targets : List TargetColumn) : Prop where
  columns : ∀ target ∈ targets, t.HasTarget target
  distinct : targets.Pairwise fun a b => a.position ≠ b.position

/-- An operator reads rows of a table, with or without a filter over them. -/
structure Session.RowsScoped (s : Session) (t : Table) (op : Operator) : Prop where
  held : s.catalog.table? t.name = some t
  reads : ∃ scan, op.sources = [scan] ∧ scan.table? = some t.name
  found : op.FoundIn [t.columns.map Column.shown]

/-- An operator gives the rows to insert, with exactly one value for each target. -/
inductive Session.InsertScoped (s : Session) (targets : List TargetColumn) :
    InsertSource → Operator → Prop where
  | values {rows : List (List Expr)} (bound : List (List BoundExpr))
      (width : ∀ row ∈ bound, row.length = targets.length)
      (found : ∀ value ∈ bound.flatten, value.FoundIn []) :
      s.InsertScoped targets (.values rows) (.values bound)
  | select {q : Select} (results : List ResultItem) (input : Operator)
      (query : s.QueryScoped q.sources (.project results input))
      (width : results.length = targets.length) :
      s.InsertScoped targets (.select q) (.project results input)

/-- The operators of a statement refer to columns of what the statement reads. -/
inductive Session.WellScoped (s : Session) : Statement → Operator → Prop where
  | select {q : Select} {op : Operator} (query : s.QueryScoped q.sources op) :
      s.WellScoped (.select q) op
  | insert {table : ObjectName} {columns : List String} {source : InsertSource} (t : Table)
      (targets : List TargetColumn) (op : Operator) (binds : s.bindTable table = .ok t)
      (held : s.catalog.table? t.name = some t) (writes : t.HasTargets targets)
      (rows : s.InsertScoped targets source op) :
      s.WellScoped (.insert table columns source) (.insert t.name targets op)
  | update {table : ObjectName} {assignments : List Assignment} {predicate : Option Expr}
      (t : Table) (bound : List (TargetColumn × BoundExpr)) (op : Operator)
      (binds : s.bindTable table = .ok t) (rows : s.RowsScoped t op)
      (writes : ∀ a ∈ bound, t.HasTarget a.1)
      (found : ∀ a ∈ bound, a.2.FoundIn [t.columns.map Column.shown]) :
      s.WellScoped (.update table assignments predicate) (.update t.name bound op)
  | delete {table : ObjectName} {predicate : Option Expr} (t : Table) (op : Operator)
      (binds : s.bindTable table = .ok t) (rows : s.RowsScoped t op) :
      s.WellScoped (.delete table predicate) (.delete t.name op)

/-! ## Looking down to the sources -/

namespace Operator

@[simp] theorem sources_restrict (predicate : Option BoundExpr) (input : Operator) :
    (restrict predicate input).sources = input.sources := by
  cases predicate <;> simp [restrict, sources]

@[simp] theorem sources_arrange (order : List BoundOrderItem) (input : Operator) :
    (arrange order input).sources = input.sources := by
  unfold arrange
  split <;> simp [sources]

theorem sources_combine {inputs : List Operator} (h : ∀ op ∈ inputs, op.sources = [op]) :
    (combine inputs).sources = inputs := by
  match inputs with
  | [] => simp [combine, sources]
  | [op] => exact h op List.mem_cons_self
  | _ :: _ :: _ => simp [combine, sources]

variable {columns : List (List SourceColumn)}

theorem foundIn_restrict {predicate : Option BoundExpr} {input : Operator}
    (hpredicate : ∀ e ∈ predicate, e.FoundIn columns) (hinput : input.FoundIn columns) :
    (restrict predicate input).FoundIn columns := by
  cases predicate with
  | none => exact hinput
  | some e => exact ⟨hpredicate e rfl, hinput⟩

theorem foundIn_arrange {order : List BoundOrderItem} {input : Operator}
    (horder : ∀ item ∈ order, item.expr.FoundIn columns) (hinput : input.FoundIn columns) :
    (arrange order input).FoundIn columns := by
  unfold arrange
  split
  · exact hinput
  · exact ⟨horder, hinput⟩

theorem foundIn_combine {inputs : List Operator} (h : ∀ op ∈ inputs, op.FoundIn columns) :
    (combine inputs).FoundIn columns := by
  match inputs with
  | [] => exact nofun
  | [op] => exact h op List.mem_cons_self
  | _ :: _ :: _ => exact trivial

theorem sources_of_table? {op : Operator} {name : TableName} (h : op.table? = some name) :
    op.sources = [op] := by
  cases op <;> first | rfl | cases h

theorem foundIn_of_table? {op : Operator} {name : TableName} (h : op.table? = some name) :
    op.FoundIn columns := by
  cases op <;> trivial

end Operator

namespace Session

variable {s : Session}

theorem SourceScoped.sources {r : TableRef} {op : Operator} {shown : List SourceColumn}
    (h : s.SourceScoped r op shown) : op.sources = [op] := by
  cases h with
  | table isTable binds held reads => exact Operator.sources_of_table? reads
  | view isView query shows => rfl

theorem SourceScoped.foundIn {r : TableRef} {op : Operator} {shown : List SourceColumn}
    (h : s.SourceScoped r op shown) (columns : List (List SourceColumn)) :
    op.FoundIn columns := by
  cases h with
  | table isTable binds held reads => exact Operator.foundIn_of_table? reads
  | view isView query shows => trivial

theorem SourcesScoped.exists_of_mem {refs : List TableRef} {ops : List Operator}
    {columns : List (List SourceColumn)} (h : s.SourcesScoped refs ops columns) {op : Operator}
    (hop : op ∈ ops) : ∃ r shown, s.SourceScoped r op shown := by
  induction ops generalizing refs columns with
  | nil => cases hop
  | cons first ops ih =>
      cases h with
      | cons hfirst hothers =>
          rcases List.mem_cons.1 hop with rfl | hop
          · exact ⟨_, _, hfirst⟩
          · exact ih hothers hop

/-! ## Queries are well scoped -/

/-- A bound table is held under its name, and every access path to it names it. -/
theorem Reachable.held (hs : s.Reachable) {name : ObjectName} {t : Table}
    (ht : s.bindTable name = .ok t) :
    s.catalog.table? t.name = some t ∧ ∀ op, t.ReadBy op → op.table? = some t.name := by
  have hfound := table?_of_bindTable ht
  refine ⟨Catalog.table?_name hs.namesSchemas hfound, fun op reads => ?_⟩
  cases reads with
  | scan => rfl
  | indexScan range mem =>
      have howner := hs.ownsIndexes t (Catalog.mem_tables_of_table? hfound) range.index mem
      exact congrArg some howner

theorem sourcesScoped_of_reads {expanding : List String}
    (h : ∀ r op source, s.ReadsSource expanding r op → s.bindSource expanding r = .ok source →
      s.SourceScoped r op source.columns)
    {refs : List TableRef} {ops : List Operator} {scope : Scope}
    (hreads : s.ReadsSources expanding refs ops)
    (hscope : refs.mapM (s.bindSource expanding) = .ok scope) :
    s.SourcesScoped refs ops scope.columns := by
  induction refs generalizing ops scope with
  | nil =>
      cases hreads
      cases hscope
      exact .nil
  | cons r rest ih =>
      cases hreads with
      | cons hfirst hothers =>
          rw [List.mapM_cons] at hscope
          obtain ⟨source, hsource, hscope⟩ := bind_eq_ok.1 hscope
          obtain ⟨sources, hsources, hscope⟩ := bind_eq_ok.1 hscope
          cases hscope
          exact .cons (h r _ source hfirst hsource) (ih hothers hsources)

theorem queryScoped_of_reads {expanding : List String}
    (h : ∀ r op source, s.ReadsSource expanding r op → s.bindSource expanding r = .ok source →
      s.SourceScoped r op source.columns)
    {q : Select} {op : Operator} (hreads : s.ReadsQuery expanding q op) :
    s.QueryScoped q.sources op := by
  cases hreads with
  | query b inputs binds reads =>
      have hsources := sourcesScoped_of_reads h reads binds.sources
      -- Looking down from the results, the inputs are found where they were put.
      have hinputs : ∀ op ∈ inputs, op.sources = [op] := by
        intro op hop
        obtain ⟨r, shown, hscoped⟩ := hsources.exists_of_mem hop
        exact hscoped.sources
      have hcombine : (Operator.combine inputs).FoundIn (Scope.columns b.sources) := by
        refine Operator.foundIn_combine fun op hop => ?_
        obtain ⟨r, shown, hscoped⟩ := hsources.exists_of_mem hop
        exact hscoped.foundIn _
      refine .project b.results _ (Scope.columns b.sources) ?_ binds.foundIn_results ?_
      · rw [Operator.sources_arrange, Operator.sources_restrict, Operator.sources_combine hinputs]
        exact hsources
      · refine Operator.foundIn_arrange binds.foundIn_order ?_
        exact Operator.foundIn_restrict binds.foundIn_predicate hcombine

/-- What reads a source has the columns that the source shows, by induction on the views that are
not being expanded. -/
theorem sourceScoped_of_reads (hs : s.Reachable) (expanding : List String) :
    ∀ r op source, s.ReadsSource expanding r op → s.bindSource expanding r = .ok source →
      s.SourceScoped r op source.columns := by
  induction expanding using s.expansion_induction with
  | inside expanding ih =>
      intro r op source hreads hsource
      obtain ⟨hview, t, ht, rfl⟩ | ⟨w, hview, hkey, b, hb, hsource⟩ := bindSource_eq_ok hsource
      · cases hreads with
        | table isTable binds reads =>
            obtain rfl : t = _ := Except.ok.inj (ht.symm.trans binds)
            obtain ⟨hheld, hnamed⟩ := hs.held ht
            exact .table hview ht hheld (hnamed op reads)
        | view isView reads => cases hview.symm.trans isView
      · cases hreads with
        | table isTable binds reads => cases hview.symm.trans isTable
        | view isView reads =>
            cases hview.symm.trans isView
            have hquery := queryScoped_of_reads (ih w (mem_views_of_view? hview) hkey) reads
            -- What the operator was made of is what the columns of the source were made of.
            cases reads with
            | query b' inputs binds _ =>
                have hsame : b' = b := binds.unique (Select.bindWith_eq_ok hb)
                refine .view hview hquery ?_
                rw [hsame]
                exact View.shows_of_source hsource

theorem Reachable.queryScoped (hs : s.Reachable) {q : Select} {op : Operator}
    (h : s.ReadsQuery [] q op) : s.QueryScoped q.sources op :=
  queryScoped_of_reads (sourceScoped_of_reads hs []) h

end Session

/-! ## Statements are well scoped -/

namespace Table

variable {t : Table}

theorem hasTarget_of_target {name : String} {target : TargetColumn}
    (h : t.target name = .ok target) : t.HasTarget target := by
  unfold Table.target at h
  split at h
  next position c hc =>
    cases h
    exact ⟨c, getElem?_of_column? hc, rfl⟩
  next => cases h

theorem hasTargets_nil (t : Table) : t.HasTargets [] := ⟨nofun, .nil⟩

theorem hasTargets_of_targets {before targets : List TargetColumn} {names : List String}
    (hbefore : t.HasTargets before) (h : t.targets before names = .ok targets) :
    t.HasTargets targets := by
  induction names generalizing before with
  | nil =>
      cases h
      exact hbefore
  | cons name rest ih =>
      obtain ⟨target, htarget, h⟩ := bind_eq_ok.1 h
      dsimp only at h
      split at h
      next => cases h
      next hnew =>
        refine ih ⟨fun a ha => ?_, ?_⟩ h
        · rcases List.mem_append.1 ha with ha | ha
          · exact hbefore.columns a ha
          · rw [List.mem_singleton.1 ha]
            exact hasTarget_of_target htarget
        · refine List.pairwise_append.2 ⟨hbefore.distinct, List.pairwise_singleton _ _, ?_⟩
          intro a ha b hb hposition
          rw [List.mem_singleton.1 hb] at hposition
          exact hnew (List.any_eq_true.2 ⟨a, ha, beq_iff_eq.2 hposition⟩)

theorem hasTargets_allTargets (t : Table) : t.HasTargets t.allTargets where
  columns := by
    intro target htarget
    obtain ⟨⟨c, position⟩, hc, rfl⟩ := List.mem_map.1 htarget
    exact ⟨c, List.mem_zipIdx_iff_getElem?.1 hc, rfl⟩
  distinct := by
    refine List.pairwise_iff_getElem.2 fun i j hi hj hij => ?_
    simp only [allTargets, List.getElem_map, List.getElem_zipIdx]
    omega

theorem hasTargets_of_insertTargets {columns : List String} {targets : List TargetColumn}
    (h : t.insertTargets columns = .ok targets) : t.HasTargets targets := by
  unfold insertTargets at h
  split at h
  · cases h
    exact t.hasTargets_allTargets
  · exact hasTargets_of_targets t.hasTargets_nil h

end Table

namespace Session

variable {s : Session}

theorem Reachable.rowsScoped (hs : s.Reachable) {name : ObjectName} {t : Table}
    (ht : s.bindTable name = .ok t) {predicate : Option Expr} {op : Operator}
    (h : t.FilteredBy [.ofTable t none] predicate op) : s.RowsScoped t op := by
  obtain ⟨hheld, hnamed⟩ := hs.held ht
  cases h with
  | all reads =>
      have hscan := hnamed op reads
      exact ⟨hheld, ⟨op, Operator.sources_of_table? hscan, hscan⟩,
        Operator.foundIn_of_table? hscan⟩
  | @filter _ scan predicate binds reads =>
      have hscan := hnamed scan reads
      have hpredicate := (Scope.gives_foundIn_bindExpr _).of_eq_ok binds
      exact ⟨hheld, ⟨scan, Operator.sources_of_table? hscan, hscan⟩, hpredicate,
        Operator.foundIn_of_table? hscan⟩

theorem Reachable.insertScoped (hs : s.Reachable) {targets : List TargetColumn}
    {source : InsertSource} {op : Operator} (h : s.Inserts targets source op) :
    s.InsertScoped targets source op := by
  cases h with
  | values bound binds =>
      refine .values bound (fun row hrow => (binds row hrow).1) fun value hvalue => ?_
      obtain ⟨row, hrow, hvalue⟩ := List.mem_flatten.1 hvalue
      obtain ⟨e, he⟩ := (binds row hrow).2 value hvalue
      exact (Scope.gives_foundIn_bindExpr e).of_eq_ok he
  | select reads width =>
      have hquery := hs.queryScoped reads
      cases reads with
      | query b inputs binds _ =>
          refine .select b.results _ hquery ?_
          rw [← width]
          exact (List.length_map _).symm

theorem Compiles.wellScoped (hs : s.Reachable) {statement : Statement}
    {rows : Operator × List ResultColumn} (h : s.Compiles statement rows) :
    s.WellScoped statement rows.1 := by
  cases h with
  | select op results reads names => exact .select (hs.queryScoped reads)
  | insert t targets op binds writes inserts =>
      exact .insert t targets op binds (hs.held binds).1 (Table.hasTargets_of_insertTargets writes)
        (hs.insertScoped inserts)
  | update t bound op binds assigns reads =>
      refine .update t bound op binds (hs.rowsScoped binds reads) (fun a ha => ?_) fun a ha => ?_
      · obtain ⟨⟨name, hname⟩, -⟩ := assigns a ha
        exact Table.hasTarget_of_target hname
      · obtain ⟨-, e, he⟩ := assigns a ha
        exact (Scope.gives_foundIn_bindExpr e).of_eq_ok he
  | delete t op binds reads => exact .delete t op binds (hs.rowsScoped binds reads)

end Session

end QueryPlanner
