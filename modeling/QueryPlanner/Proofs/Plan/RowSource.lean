import QueryPlanner.Proofs.Binding.Expansion
import QueryPlanner.Proofs.Binding.Lookups
import QueryPlanner.Proofs.Plan.Access

/-!
# The rows that a change reads

Deletions and updates find their table, bind the predicate, give it types and choose the access path
on their own.  They read the same rows in the same way as the query of all columns of the table, for
which all that is done as for the sources, the results and the predicate of any query.

A deletion is refused with the error of that query (`compileRows_delete`, `compileRows_rowsOf`).  An
update has its assignments before its predicate, and these may give types to placeholders of the
predicate, but what is read does not depend on types (`rowOperator_of_filteredAccess`).

Main statement: `compile_rowSource`.
-/

namespace QueryPlanner

/-- The query of all columns of the rows of a table that satisfy a predicate. -/
def Select.rowsOf (table : ObjectName) (predicate : Option Expr) : Select :=
  { items := [.wildcard], sources := [{ name := table }], predicate }

/-- Gives types to a predicate, if there is one. -/
def BoundExpr.resolveWhere : Option BoundExpr → Typing Unit
  | none => pure ()
  | some predicate => predicate.resolvePredicate

namespace Table

/-! ## The rows of a table -/

/-- The operators of the rows that satisfy a bound predicate. -/
def accessWhere (t : Table) (predicate : Option BoundExpr) : Except PlanError Operator :=
  (t.access 0 (predicate.toList.flatMap BoundExpr.conjuncts)).map (.restrict predicate)

/-- The results of the query of all columns. -/
def allResults (t : Table) : List ResultItem :=
  (Scope.references [.ofTable t none]).map Scope.columnResult

/-- The types of the results of the query of all columns. -/
def allResultColumns (t : Table) : List ResultColumn :=
  (Scope.references [.ofTable t none]).map fun c => ⟨c.name, c.type⟩

/-- The bound query of all columns of the rows that satisfy a bound predicate. -/
def rowsWhere (t : Table) (predicate : Option BoundExpr) : BoundSelect :=
  { sources := [.ofTable t none], results := t.allResults, predicate, order := [],
    offset := none, limit := none }

variable {t : Table}

/-- What an update or a deletion reads. -/
theorem filteredAccess_eq (scope : Scope) (predicate : Option Expr) :
    t.filteredAccess scope predicate = (do
      let bound ← .ofExcept (predicate.mapM scope.bindExpr)
      BoundExpr.resolveWhere bound
      .ofExcept (t.accessWhere bound)) := by
  cases predicate with
  | none =>
      show Typing.ofExcept (t.access 0 []) = Typing.ofExcept ((t.access 0 []).map _)
      cases t.access 0 [] <;> rfl
  | some predicate =>
      show (Typing.ofExcept (scope.bindExpr predicate) >>= _) =
        Typing.ofExcept ((scope.bindExpr predicate).map some) >>= _
      cases scope.bindExpr predicate with
      | error e => rfl
      | ok bound =>
          have hconjuncts : (some bound).toList.flatMap BoundExpr.conjuncts = bound.conjuncts :=
            List.append_nil _
          show (bound.resolvePredicate >>= fun _ =>
              Typing.ofExcept (t.access 0 bound.conjuncts) >>= _) =
            bound.resolvePredicate >>= fun _ => Typing.ofExcept (t.accessWhere (some bound))
          rw [accessWhere, hconjuncts]
          cases t.access 0 bound.conjuncts <;> rfl

/-- Columns have types of their own. -/
theorem mapM_resolve_columnResult (columns : List BoundColumn) :
    ((columns.map Scope.columnResult).mapM fun item =>
        return ResultColumn.mk item.name (← item.expr.resolve) : Typing _) =
      pure (columns.map fun c => ⟨c.name, c.type⟩) := by
  induction columns with
  | nil => rfl
  | cons c columns ih =>
      rw [List.map_cons, List.mapM_cons, ih]
      simp [Scope.columnResult, BoundExpr.resolve]

theorem resolve_rowsWhere (predicate : Option BoundExpr) :
    (t.rowsWhere predicate).resolve =
      BoundExpr.resolveWhere predicate >>= fun _ => pure t.allResultColumns := by
  unfold BoundSelect.resolve rowsWhere
  simp only [allResults, mapM_resolve_columnResult]
  cases predicate <;> rfl

theorem operator_rowsWhere (predicate : Option BoundExpr) :
    (t.rowsWhere predicate).operator = (t.accessWhere predicate).map (.project t.allResults) := by
  rw [rowsWhere, BoundSelect.operator, sourceOperators, sourceOperators, BoundSource.ofTable,
    BoundSource.operator, SourceOrigin.operator, accessWhere]
  cases t.access 0 (predicate.toList.flatMap BoundExpr.conjuncts) <;> rfl

end Table

namespace Session

variable {s : Session} {table : ObjectName}

/-! ## Changes and queries -/

/-- The table that a change is made to and the rows it reads. -/
def rowSource (s : Session) (table : ObjectName) (predicate : Option Expr) :
    Typing (Table × Operator) := do
  let t ← .ofExcept (s.bindTable table)
  return (t, ← t.filteredAccess [.ofTable t none] predicate)

theorem compileRows_delete (predicate : Option Expr) :
    s.compileRows (.delete table predicate) =
      (fun rows => (.delete rows.1.name rows.2, [])) <$> s.rowSource table predicate := by
  show (s.compileDelete table predicate >>= fun root => pure (root, [])) = _
  unfold compileDelete rowSource
  simp only [map_bind, map_pure, bind_assoc, pure_bind]

theorem bindIn_rowsOf (t : Table) (predicate : Option Expr) :
    (Select.rowsOf table predicate).bindIn [.ofTable t none] =
      (predicate.mapM (Scope.bindExpr [.ofTable t none])).map t.rowsWhere := by
  have hitems : [SelectItem.wildcard].mapM (Scope.bindItem [.ofTable t none]) =
      .ok [t.allResults] := rfl
  have hresults : [t.allResults].flatten = t.allResults := List.append_nil _
  unfold Select.bindIn Select.rowsOf
  dsimp only
  rw [hitems, ok_bind, hresults]
  cases predicate.mapM (Scope.bindExpr [.ofTable t none]) <;> rfl

theorem bindSelect_rowsOf (h : s.view? table = none) (predicate : Option Expr) :
    s.bindSelect (.rowsOf table predicate) =
      s.bindTable table >>= fun t =>
        (predicate.mapM (Scope.bindExpr [.ofTable t none])).map t.rowsWhere := by
  have hname : s.view? ({ name := table } : TableRef).name = none := h
  rw [bindSelect, Select.bindWith_eq]
  unfold Select.rowsOf
  rw [Select.bindSources, bindSource_of_table hname]
  cases s.bindTable table with
  | error e => rfl
  | ok t => exact bindIn_rowsOf t predicate

/-- The query of all columns reads the rows that a change reads. -/
theorem compileRows_rowsOf (h : s.view? table = none) (predicate : Option Expr) :
    s.compileRows (.select (.rowsOf table predicate)) =
      (fun rows => (.project rows.1.allResults rows.2, rows.1.allResultColumns)) <$>
        s.rowSource table predicate := by
  show s.compileSelect (.rowsOf table predicate) = _
  unfold compileSelect rowSource
  rw [bindSelect_rowsOf h]
  cases s.bindTable table with
  | error e => rfl
  | ok t =>
      show (Typing.ofExcept
          ((predicate.mapM (Scope.bindExpr [.ofTable t none])).map t.rowsWhere) >>= _) =
        _ <$> (t.filteredAccess [.ofTable t none] predicate >>= _)
      rw [Table.filteredAccess_eq]
      cases predicate.mapM (Scope.bindExpr [.ofTable t none]) with
      | error e => rfl
      | ok bound =>
          show ((t.rowsWhere bound).resolve >>= _) =
            _ <$> ((BoundExpr.resolveWhere bound >>= _) >>= _)
          rw [Table.resolve_rowsWhere, Table.operator_rowsWhere]
          simp only [bind_assoc, pure_bind, map_bind, map_pure]
          cases t.accessWhere bound <;> rfl

/-- What a change reads, which does not depend on the types of placeholders. -/
def rowOperator (s : Session) (table : ObjectName) (predicate : Option Expr) :
    Except PlanError Operator := do
  let t ← s.bindTable table
  t.accessWhere (← predicate.mapM (Scope.bindExpr [.ofTable t none]))

theorem rowOperator_of_filteredAccess {predicate : Option Expr} {t : Table} {op : Operator}
    {slots after : Slots} (ht : s.bindTable table = .ok t)
    (h : (t.filteredAccess [.ofTable t none] predicate).runOn slots = .ok (op, after)) :
    s.rowOperator table predicate = .ok op := by
  rw [Table.filteredAccess_eq, Typing.runOn_ofExcept_bind] at h
  obtain ⟨bound, hbound, h⟩ := bind_eq_ok.1 h
  rw [Typing.runOn_bind] at h
  obtain ⟨_, -, h⟩ := bind_eq_ok.1 h
  rw [Typing.runOn_ofExcept] at h
  obtain ⟨op, hop, hresult⟩ := map_eq_ok.1 h
  cases hresult
  unfold rowOperator
  rw [ht, ok_bind, hbound, ok_bind, hop]

theorem rowOperator_of_rowSource {predicate : Option Expr} {rows : Table × Operator}
    {slots after : Slots} (h : (s.rowSource table predicate).runOn slots = .ok (rows, after)) :
    s.bindTable table = .ok rows.1 ∧ s.rowOperator table predicate = .ok rows.2 := by
  unfold rowSource at h
  rw [Typing.runOn_ofExcept_bind] at h
  obtain ⟨t, ht, h⟩ := bind_eq_ok.1 h
  rw [Typing.runOn_bind] at h
  obtain ⟨_, haccess, h⟩ := bind_eq_ok.1 h
  cases h
  exact ⟨ht, rowOperator_of_filteredAccess ht haccess⟩

/-- An update reads what any change of these rows reads. -/
theorem exists_of_compileRows_update {assignments : List Assignment} {predicate : Option Expr}
    {rows : (Operator × List ResultColumn) × Slots} {slots : Slots}
    (h : (s.compileRows (.update table assignments predicate)).runOn slots = .ok rows) :
    ∃ t targets input, s.bindTable table = .ok t ∧ s.rowOperator table predicate = .ok input ∧
      rows.1.1 = .update t.name targets input := by
  have hupdate : (s.compileUpdate table assignments predicate >>= fun root =>
      pure (root, [])).runOn slots = .ok rows := h
  unfold compileUpdate at hupdate
  rw [bind_assoc, Typing.runOn_ofExcept_bind] at hupdate
  obtain ⟨t, ht, hupdate⟩ := bind_eq_ok.1 hupdate
  rw [bind_assoc, Typing.runOn_bind] at hupdate
  obtain ⟨⟨targets, between⟩, -, hupdate⟩ := bind_eq_ok.1 hupdate
  rw [bind_assoc, Typing.runOn_bind] at hupdate
  obtain ⟨⟨input, after⟩, haccess, hupdate⟩ := bind_eq_ok.1 hupdate
  cases hupdate
  exact ⟨t, targets, input, ht, rowOperator_of_filteredAccess ht haccess, rfl⟩

/-! ## Plans -/

theorem parameterCount_rowsOf (table : ObjectName) (predicate : Option Expr) :
    (Statement.select (.rowsOf table predicate)).parameterCount =
      (Statement.delete table predicate).parameterCount := by
  have hexprs : (Select.rowsOf table predicate).exprs = predicate.toList := List.append_nil _
  show QueryPlanner.parameterCount (Select.rowsOf table predicate).exprs = _
  rw [hexprs]
  rfl

theorem compile_manipulation (s : Session) (statement : Statement)
    (h : statement.category = .manipulation) (hints : List (Option DataType)) :
    s.compile statement hints =
      if maxParameters < statement.parameterCount then
        .error (.invalidStatement (.tooManyParameters statement.parameterCount maxParameters))
      else
        ((s.compileRows statement).runOn (startSlots statement hints)).map fun rows =>
          .plan (statement.plan rows) := by
  rw [compile_eq, Statement.fixedOutcome?, h]
  dsimp only
  split <;> rfl

/-- A statement whose rows are compiled has the plan of its rows. -/
theorem compile_of_runOn {s : Session} {statement : Statement} {hints : List (Option DataType)}
    {rows : (Operator × List ResultColumn) × Slots} {p : Plan}
    (h : statement.category = .manipulation) (hcount : statement.parameterCount ≤ maxParameters)
    (hrows : (s.compileRows statement).runOn (startSlots statement hints) = .ok rows)
    (hp : p = statement.plan rows) : s.compile statement hints = .ok (.plan p) := by
  rw [compile_manipulation s statement h, if_neg (Nat.not_lt.2 hcount), hrows, hp]
  rfl

/-- An update with a plan reads the rows of a change that can be made. -/
theorem exists_targets_of_compile_update {predicate : Option Expr} {rows : Table × Operator}
    {slots after : Slots} (h : (s.rowSource table predicate).runOn slots = .ok (rows, after))
    {assignments : List Assignment} {hints : List (Option DataType)} {update : Plan}
    (hupdate : s.compile (.update table assignments predicate) hints = .ok (.plan update)) :
    ∃ targets, update.root = .update rows.1.name targets rows.2 := by
  obtain ⟨ht, hinput⟩ := rowOperator_of_rowSource h
  obtain ⟨-, compiled, hcompiled, rfl⟩ := compile_eq_plan hupdate
  obtain ⟨t, targets, input, ht', hinput', hroot⟩ := exists_of_compileRows_update hcompiled
  rw [ht] at ht'
  rw [hinput] at hinput'
  cases ht'
  cases hinput'
  exact ⟨targets, hroot⟩

theorem view?_eq_none (htable : table.schema.isSome ∨ s.views.find? table.name = none) :
    s.view? table = none := by
  unfold view?
  cases hschema : table.schema with
  | some schema => rfl
  | none => exact htable.resolve_left (by simp [hschema])

/-- A deletion and the query of all columns are refused with one error, or both have plans.  Then
they read the same rows through the same operators, and so does every update of these rows that has
a plan, whatever it assigns and whichever types of placeholders are known. -/
theorem compile_rowSource (s : Session) (table : ObjectName)
    (htable : table.schema.isSome ∨ s.views.find? table.name = none) (predicate : Option Expr)
    (hints : List (Option DataType)) :
    (∃ e, s.compile (.delete table predicate) hints = .error e ∧
      s.compile (.select (.rowsOf table predicate)) hints = .error e) ∨
    ∃ deletion query name results input,
      s.compile (.delete table predicate) hints = .ok (.plan deletion) ∧
      s.compile (.select (.rowsOf table predicate)) hints = .ok (.plan query) ∧
      deletion.root = .delete name input ∧ query.root = .project results input ∧
      deletion.parameters = query.parameters ∧
      ∀ assignments hints update,
        s.compile (.update table assignments predicate) hints = .ok (.plan update) →
          ∃ targets, update.root = .update name targets input := by
  have hcount := parameterCount_rowsOf table predicate
  have hslots : startSlots (.select (.rowsOf table predicate)) hints =
      startSlots (.delete table predicate) hints := by
    unfold startSlots
    rw [hcount]
  have hdelete := s.compile_manipulation (.delete table predicate) rfl hints
  have hselect := s.compile_manipulation (.select (.rowsOf table predicate)) rfl hints
  rw [hcount, hslots] at hselect
  split at hdelete
  next hmany =>
    rw [if_pos hmany] at hselect
    exact .inl ⟨_, hdelete, hselect⟩
  next hfew =>
    rw [if_neg hfew] at hselect
    rw [compileRows_delete, Typing.runOn_map] at hdelete
    rw [compileRows_rowsOf (view?_eq_none htable), Typing.runOn_map] at hselect
    cases hrows : (s.rowSource table predicate).runOn
        (startSlots (.delete table predicate) hints) with
    | error e =>
        rw [hrows] at hdelete hselect
        exact .inl ⟨e, hdelete, hselect⟩
    | ok rows =>
        rw [hrows] at hdelete hselect
        exact .inr ⟨_, _, _, _, rows.1.2, hdelete, hselect, rfl, rfl, rfl,
          fun _ _ _ => exists_targets_of_compile_update hrows⟩

end Session

/-- The condition `x = ?` on the table of `pointCatalog`. -/
def pointCondition : Expr := .binary .eq (.column none "x") (.parameter 0)

/-- A session with `pointCatalog` and no views. -/
def pointSession : Session := { catalog := pointCatalog, defaultSchema := "main" }

theorem compile_rowSource_pointSession :
    pointSession.views.find? "points" = none ∧
      ∃ deletion query name results input,
        pointSession.compile (.delete { name := "points" } (some pointCondition)) [] =
          .ok (.plan deletion) ∧
        pointSession.compile (.select (.rowsOf { name := "points" } (some pointCondition))) [] =
          .ok (.plan query) ∧
        deletion.root = .delete name input ∧ query.root = .project results input ∧
        deletion.parameters = query.parameters ∧
        ∀ assignments hints update,
          pointSession.compile (.update { name := "points" } assignments (some pointCondition))
              hints = .ok (.plan update) →
            ∃ targets, update.root = .update name targets input := by
  have hview : pointSession.views.find? "points" = none := rfl
  have hplanned :
      (pointSession.compile (.delete { name := "points" } (some pointCondition)) []).isOk := by
    with_unfolding_all rfl
  have hrows :=
    pointSession.compile_rowSource { name := "points" } (.inr hview) (some pointCondition) []
  refine ⟨hview, hrows.resolve_left ?_⟩
  rintro ⟨e, he, -⟩
  rw [he] at hplanned
  cases hplanned

end QueryPlanner
