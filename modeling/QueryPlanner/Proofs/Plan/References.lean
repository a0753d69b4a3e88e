import Mathlib.Data.List.Forall2
import QueryPlanner.Proofs.Binding.Stack
import QueryPlanner.Proofs.Plan.Scoping

/-!
# The references of a plan

In the plan of a statement every operator, at any depth, refers to columns of its own inputs.  This
is said of the operators alone: which inputs an operator has and which columns these show is found
in the plan, the catalog and the views, not in the statement.

Main statement: `compile_wellScoped`, which also says what statements and plans have to do with each
other.
-/

namespace QueryPlanner

namespace Operator

/-- The inputs whose columns the expressions of an operator refer to. -/
def scope : Operator → List Operator
  | .filter _ input | .project _ input | .sort _ input | .insert _ _ input | .update _ _ input
  | .delete _ input => input.sources
  | .tableScan _ | .indexScan _ | .values _ | .product _ => []

/-- The expressions of an operator, without those of its inputs. -/
def exprs : Operator → List BoundExpr
  | .values rows => rows.flatten
  | .filter predicate _ => [predicate]
  | .project results _ => results.map (·.expr)
  | .sort order _ => order.map (·.expr)
  | .update _ assignments _ => assignments.map (·.2)
  | .tableScan _ | .indexScan _ | .product _ | .insert .. | .delete .. => []

theorem exists_of_mem_outlineInputs {depth : Nat} {inputs : List Operator} {node : Nat × Operator}
    (h : node ∈ outlineInputs depth inputs) :
    ∃ op ∈ inputs, node ∈ op.outline depth := by
  induction inputs with
  | nil => cases h
  | cons op rest ih =>
      rw [outlineInputs] at h
      rcases List.mem_append.1 h with h | h
      · exact ⟨op, List.mem_cons_self, h⟩
      · obtain ⟨op', hop', h⟩ := ih h
        exact ⟨op', List.mem_cons_of_mem _ hop', h⟩

/-- What holds of an operator and of the whole tree below it holds of the whole tree. -/
theorem forall_outline_of_input {P : Operator → Prop} {op input : Operator} (hop : P op)
    (hinput : ∀ depth node, node ∈ input.outline depth → P node.2)
    (houtline : ∀ depth, op.outline depth = (depth, op) :: input.outline (depth + 1)) :
    ∀ depth node, node ∈ op.outline depth → P node.2 := by
  intro depth node hnode
  rw [houtline] at hnode
  rcases List.mem_cons.1 hnode with rfl | hnode
  · exact hop
  · exact hinput _ node hnode

end Operator

/-- An operator that is an input has these columns: those of its table in the catalog, or what a
view shows of its results. -/
inductive Session.HasColumns (s : Session) : Operator → List SourceColumn → Prop where
  | table {t : Table} {op : Operator} (held : s.catalog.table? t.name = some t)
      (reads : op.table? = some t.name) : s.HasColumns op (t.columns.map Column.shown)
  | view {w : View} {results : List ResultItem} {input : Operator} {columns : List SourceColumn}
      (isView : w ∈ s.views.items) (shows : w.Shows results columns) :
      s.HasColumns (.project results input) columns

/-- Every reference of the expressions of an operator is to a column of one of its inputs. -/
def Session.InScope (s : Session) (op : Operator) : Prop :=
  ∀ e ∈ op.exprs, ∀ c ∈ e.columns, ∃ input shown, op.scope[c.source]? = some input ∧
    s.HasColumns input shown ∧ shown[c.position]? = some c.shown

namespace Session

variable {s : Session}

/-! ## The operators of a plan -/

/-- Every operator of a tree is in scope. -/
def AllInScope (s : Session) (op : Operator) : Prop :=
  ∀ depth node, node ∈ op.outline depth → s.InScope node.2

variable {columns : List (List SourceColumn)}

theorem inScope_of_foundIn {op : Operator} (hcolumns : List.Forall₂ s.HasColumns op.scope columns)
    (hfound : ∀ e ∈ op.exprs, e.FoundIn columns) : s.InScope op := by
  intro e he c hc
  obtain ⟨shown, hshown, hposition⟩ := hfound e he c hc
  obtain ⟨hlt, hget⟩ := List.getElem?_eq_some_iff.1 hshown
  have hscope : c.source < op.scope.length := hcolumns.length_eq ▸ hlt
  have hinput := hcolumns.get hscope hlt
  rw [List.get_eq_getElem, List.get_eq_getElem, hget] at hinput
  exact ⟨_, shown, List.getElem?_eq_getElem hscope, hinput, hposition⟩

theorem inScope_of_exprs_eq_nil {op : Operator} (h : op.exprs = []) : s.InScope op := by
  intro e he
  rw [h] at he
  cases he

theorem allInScope_of_input {op input : Operator} (hop : s.InScope op)
    (hinput : s.AllInScope input)
    (houtline : ∀ depth, op.outline depth = (depth, op) :: input.outline (depth + 1)) :
    s.AllInScope op := Operator.forall_outline_of_input hop hinput houtline

theorem allInScope_of_table? {op : Operator} {name : TableName} (h : op.table? = some name) :
    s.AllInScope op := by
  intro depth node hnode
  have hleaf : op.outline depth = [(depth, op)] := by
    cases op <;> first | rfl | cases h
  have hempty : op.exprs = [] := by
    cases op <;> first | rfl | cases h
  rw [hleaf] at hnode
  rw [List.mem_singleton.1 hnode]
  exact inScope_of_exprs_eq_nil hempty

/-- Operators on the way down to sources are in scope if the sources are, by induction along the
way. -/
theorem allInScope_of_sources {input : Operator}
    (hcolumns : List.Forall₂ s.HasColumns input.sources columns) (hfound : input.FoundIn columns)
    (hsources : ∀ op ∈ input.sources, s.AllInScope op) : s.AllInScope input := by
  -- A filter or a sort order has the sources of its input, so its scope is theirs as well.
  fun_induction Operator.sources input with
  | case1 predicate input ih =>
      have hself : s.InScope (.filter predicate input) :=
        inScope_of_foundIn hcolumns (List.forall_mem_singleton.2 hfound.1)
      exact allInScope_of_input hself (ih hcolumns hfound.2 hsources) fun _ => rfl
  | case2 order input ih =>
      have hself : s.InScope (.sort order input) :=
        inScope_of_foundIn hcolumns (List.forall_mem_map.2 hfound.1)
      exact allInScope_of_input hself (ih hcolumns hfound.2 hsources) fun _ => rfl
  | case3 inputs =>
      intro depth node hnode
      rcases List.mem_cons.1 hnode with rfl | hnode
      · exact inScope_of_exprs_eq_nil rfl
      · obtain ⟨op, hop, hnode⟩ := Operator.exists_of_mem_outlineInputs hnode
        exact hsources op hop _ node hnode
  | case4 rows =>
      intro depth node hnode
      rw [List.mem_singleton.1 hnode]
      exact inScope_of_foundIn hcolumns hfound
  | case5 op => exact hsources op (List.mem_singleton_self op)

mutual

theorem QueryScoped.allInScope : ∀ {refs : List TableRef} {op : Operator},
    s.QueryScoped refs op → s.AllInScope op
  | _, _, .project results input columns sources found foundBelow => by
      obtain ⟨hcolumns, hsources⟩ := sources.allInScope
      have hself : s.InScope (.project results input) :=
        inScope_of_foundIn hcolumns (List.forall_mem_map.2 found)
      exact allInScope_of_input hself (allInScope_of_sources hcolumns foundBelow hsources)
        fun _ => rfl

theorem SourceScoped.allInScope : ∀ {r : TableRef} {op : Operator} {shown : List SourceColumn},
    s.SourceScoped r op shown → s.HasColumns op shown ∧ s.AllInScope op
  | _, _, _, .table _ _ held reads => ⟨.table held reads, allInScope_of_table? reads⟩
  | _, _, _, .view isView query shows =>
      ⟨.view (mem_views_of_view? isView) shows, query.allInScope⟩

theorem SourcesScoped.allInScope : ∀ {refs : List TableRef} {ops : List Operator}
    {columns : List (List SourceColumn)}, s.SourcesScoped refs ops columns →
      List.Forall₂ s.HasColumns ops columns ∧ ∀ op ∈ ops, s.AllInScope op
  | _, _, _, .nil => ⟨.nil, nofun⟩
  | _, _, _, .cons first others =>
      have hfirst := first.allInScope
      have hothers := others.allInScope
      ⟨.cons hfirst.1 hothers.1, List.forall_mem_cons.2 ⟨hfirst.2, hothers.2⟩⟩

end

theorem RowsScoped.allInScope {t : Table} {op : Operator} (h : s.RowsScoped t op) :
    List.Forall₂ s.HasColumns op.sources [t.columns.map Column.shown] ∧ s.AllInScope op := by
  obtain ⟨scan, hsources, hscan⟩ := h.reads
  have hcolumns : List.Forall₂ s.HasColumns op.sources [t.columns.map Column.shown] := by
    rw [hsources]
    exact .cons (.table h.held hscan) .nil
  refine ⟨hcolumns, allInScope_of_sources hcolumns h.found ?_⟩
  rw [hsources]
  exact List.forall_mem_singleton.2 (allInScope_of_table? hscan)

/-- The operators of a well-scoped statement are in scope, at any depth. -/
theorem WellScoped.allInScope {statement : Statement} {op : Operator}
    (h : s.WellScoped statement op) : s.AllInScope op := by
  cases h with
  | select query => exact query.allInScope
  | insert t targets op binds held writes rows =>
      cases rows with
      | values bound width found =>
          -- The rows have no sources.
          have hrows : s.AllInScope (.values bound) :=
            allInScope_of_sources .nil found fun op hop => nomatch hop
          exact allInScope_of_input (inScope_of_exprs_eq_nil rfl) hrows fun _ => rfl
      | select results input query width =>
          exact allInScope_of_input (inScope_of_exprs_eq_nil rfl) query.allInScope fun _ => rfl
  | update t bound op binds rows writes found =>
      obtain ⟨hcolumns, hrows⟩ := rows.allInScope
      have hself : s.InScope (.update t.name bound op) :=
        inScope_of_foundIn hcolumns (List.forall_mem_map.2 found)
      exact allInScope_of_input hself hrows fun _ => rfl
  | delete t op binds rows =>
      exact allInScope_of_input (inScope_of_exprs_eq_nil rfl) rows.allInScope.2 fun _ => rfl

theorem compiles_of_compile {statement : Statement} {hints : List (Option DataType)} {p : Plan}
    (h : s.compile statement hints = .ok (.plan p)) :
    s.Compiles statement (p.root, p.results) := by
  obtain ⟨-, rows, hrows, rfl⟩ := compile_eq_plan h
  exact (s.gives_compileRows statement (startSlots statement hints)).of_eq_ok hrows

theorem Compiles.names {statement : Statement} {rows : Operator × List ResultColumn}
    (h : s.Compiles statement rows) : rows.2.map (·.name) = rows.1.resultNames := by
  cases h with
  | select op results reads names => exact names
  | insert => rfl
  | update => rfl
  | delete => rfl

/-- The plan of a statement refers to the columns of what the statement reads, down to the bodies of
views: the number of every reference is that of an input of its operator, its position that of a
column there, and it says of this column what the catalog or the view says.  Insertions have as many
values as targets, targets are columns, and the results are those of the outermost projection. -/
theorem compile_wellScoped {s : Session} (hs : s.Reachable) {statement : Statement}
    {hints : List (Option DataType)} {p : Plan} (h : s.compile statement hints = .ok (.plan p)) :
    s.WellScoped statement p.root ∧
      (∀ depth op, (depth, op) ∈ p.root.outline 0 → s.InScope op) ∧
      p.results.map (·.name) = p.root.resultNames := by
  have hcompiles := compiles_of_compile h
  have hscoped := hcompiles.wellScoped hs
  exact ⟨hscoped, fun depth op hop => hscoped.allInScope 0 (depth, op) hop, hcompiles.names⟩

end Session

/-- The view `v (n)` of `SELECT x FROM t`. -/
def renamingView : View :=
  { name := "v"
    columns := ["n"]
    query :=
      { items := [.expr (.column none "x") none none], sources := [{ name := { name := "t" } }] }
    parameterFree := rfl }

/-- A session with a table `t (x)` and the view of it. -/
def renamingSession : Session :=
  let t : Table := { name := ⟨"main", "t"⟩, columns := [{ name := "x", type := .integer }] }
  let main : Schema := { name := "main", tables := ⟨[t], List.pairwise_singleton _ _⟩ }
  { catalog := ⟨⟨[main], List.pairwise_singleton _ _⟩⟩
    defaultSchema := "main"
    views := ⟨[renamingView], List.pairwise_singleton _ _⟩ }

/-- The table `t (x)` of the session. -/
def renamingTable : Table :=
  { name := ⟨"main", "t"⟩, columns := [{ name := "x", type := .integer }] }

/-- The column `x`, where the table is the first source. -/
def renamedColumn : BoundColumn :=
  { source := 0, qualifier := "t", position := 0, name := "x", type := some .integer
    collation := none }

/-- The column `n`, where the view is the second source. -/
def renamingColumn : BoundColumn :=
  { source := 1, qualifier := "v", position := 0, name := "n", type := some .integer
    collation := none }

/-- The view as a source. -/
def renamingSource : BoundSource :=
  { aliasName := "v"
    origin := .view "v"
      { sources := [.ofTable renamingTable none], results := [⟨.column renamedColumn, "x"⟩]
        predicate := none, order := [], offset := none, limit := none }
    columns := [⟨"n", some .integer, none⟩] }

/-- The query `SELECT n FROM t, v WHERE x < n`. -/
def renamingQuery : Select :=
  { items := [.expr (.column none "n") none none]
    sources := [{ name := { name := "t" } }, { name := { name := "v" } }]
    predicate := some (.binary .lt (.column none "x") (.column none "n")) }

def renamingBound : BoundSelect :=
  { sources := [.ofTable renamingTable none, renamingSource]
    results := [⟨.column renamingColumn, "n"⟩]
    predicate := some (.binary .lt (.column renamedColumn) (.column renamingColumn))
    order := [], offset := none, limit := none }

/-- The query reads the table and the body of the view, which reads the table again. -/
def renamingPlan : Plan :=
  let x : BoundColumn :=
    { source := 0, qualifier := "t", position := 0, name := "x", type := some .integer
      collation := none }
  let n : BoundColumn :=
    { source := 1, qualifier := "v", position := 0, name := "n", type := some .integer
      collation := none }
  let t : Operator := .tableScan ⟨"main", "t"⟩
  { statement := "SELECT"
    root := .project [⟨.column n, "n"⟩] (.filter (.binary .lt (.column x) (.column n))
      (.product [t, .project [⟨.column x, "x"⟩] t]))
    results := [⟨"n", some .integer⟩]
    parameters := []
    offset := none
    limit := none }

theorem compile_wellScoped_renamingSession :
    renamingSession.Reachable ∧
      renamingSession.compile (.select renamingQuery) [] = .ok (.plan renamingPlan) ∧
      renamingSession.WellScoped (.select renamingQuery) renamingPlan.root ∧
      (∀ depth op, (depth, op) ∈ renamingPlan.root.outline 0 → renamingSession.InScope op) ∧
      renamingPlan.results.map (·.name) = renamingPlan.root.resultNames := by
  have hreachable : renamingSession.Reachable := by
    have hstart : Session.Reachable { catalog := .empty, defaultSchema := "main" } :=
      .start [] rfl "main"
    refine @Session.Reachable.foldlM _ _ [.createSchema "main",
      .createTable { name := "t" } [{ name := "x", type := .integer }],
      .createView "v" ["n"] renamingView.query] hstart ?_
    rfl
  have hbound : renamingSession.bindSelect renamingQuery = .ok renamingBound :=
    Session.bindSelect_of_run (by with_unfolding_all rfl)
  have hrows : (renamingSession.compileRows (.select renamingQuery)).runOn [] =
      .ok ((renamingPlan.root, renamingPlan.results), []) := by
    rw [Session.compileRows, Session.compileSelect, hbound]
    with_unfolding_all rfl
  have hplan : renamingSession.compile (.select renamingQuery) [] = .ok (.plan renamingPlan) := by
    have hslots : Session.startSlots (.select renamingQuery) [] = [] := rfl
    rw [Session.compile_eq, hslots, hrows]
    rfl
  exact ⟨hreachable, hplan, Session.compile_wellScoped hreachable hplan⟩

end QueryPlanner
