import QueryPlanner.Proofs.Catalog.Ownership
import QueryPlanner.Proofs.Plan.Erasure

/-!
# Indexes change only the access path

Two catalogs that differ only in the indexes of their tables give every statement the same outcome,
but for the scans that read the tables.  Where they differ, one plan scans an index of the table
that the other plan scans as a whole or through another index.

Main statement: `compile_sameOutcome`.
-/

namespace QueryPlanner

/-- The table without its indexes. -/
def Table.bare (t : Table) : Table := { t with indexes := [] }

/-- Forgetting the indexes of tables. -/
def Erasure.indexes : Erasure where
  table := Table.bare
  name_table _ := rfl
  columns_table _ := rfl

namespace Catalog

/-- The catalog without indexes. -/
def bare (c : Catalog) : Catalog := c.erase .indexes

end Catalog

namespace Operator

/-- The tree in which every index is replaced by its table. -/
def withoutIndexes : Operator → Operator := mapScans fun range => .tableScan range.index.table

theorem changesRows_withoutIndexes (op : Operator) :
    op.withoutIndexes.changesRows = op.changesRows := by
  cases op <;> rfl

end Operator

/-- Without indexes a table is scanned as a whole. -/
theorem Table.fitsTable_indexes {t : Table} (h : ∀ i ∈ t.indexes, i.table = t.name) :
    Erasure.indexes.FitsTable (fun range => .tableScan range.index.table) t := by
  intro source conjuncts
  have hbare : t.bare.access source conjuncts = .ok (.tableScan t.name) := by
    unfold access
    rw [chooseRange_eq]
    rfl
  show t.bare.access source conjuncts = _
  obtain ⟨op, hop, hreads⟩ := t.exists_access source conjuncts
  rw [hbare, hop]
  -- A scan of an index tells its table by the name that the index carries.
  cases hreads with
  | scan => rfl
  | indexScan range mem =>
      show _ = Except.ok (Operator.tableScan range.index.table)
      rw [h _ mem]

/-! ## Outcomes -/

/-- Two plans differ at most in the access paths to tables. -/
structure Plan.SameButAccess (p q : Plan) : Prop where
  statement : p.statement = q.statement
  results : p.results = q.results
  parameters : p.parameters = q.parameters
  offset : p.offset = q.offset
  limit : p.limit = q.limit
  changesRows : p.changesRows = q.changesRows
  root : p.root.withoutIndexes = q.root.withoutIndexes

/-- Two compilations have the same outcome, but for the access paths to tables. -/
inductive SameOutcome : Except PlanError Outcome → Except PlanError Outcome → Prop where
  | notApplicable : SameOutcome (.ok .notApplicable) (.ok .notApplicable)
  | refused (e : PlanError) : SameOutcome (.error e) (.error e)
  | planned {p q : Plan} (same : p.SameButAccess q) :
      SameOutcome (.ok (.plan p)) (.ok (.plan q))

theorem SameOutcome.refl (outcome : Except PlanError Outcome) : SameOutcome outcome outcome := by
  cases outcome with
  | error e => exact .refused e
  | ok outcome =>
      cases outcome with
      | notApplicable => exact .notApplicable
      | plan p => exact .planned ⟨rfl, rfl, rfl, rfl, rfl, rfl, rfl⟩

theorem sameButAccess_plan (statement : Statement)
    {p q : (Operator × List ResultColumn) × Slots}
    (h : ((p.1.1.withoutIndexes, p.1.2), p.2) = ((q.1.1.withoutIndexes, q.1.2), q.2)) :
    (statement.plan p).SameButAccess (statement.plan q) := by
  rw [Prod.mk.injEq, Prod.mk.injEq] at h
  have hchanges : p.1.1.changesRows = q.1.1.changesRows := by
    rw [← Operator.changesRows_withoutIndexes, h.1.1, Operator.changesRows_withoutIndexes]
  exact ⟨rfl, h.1.2, h.2, rfl, rfl, hchanges, h.1.1⟩

namespace Session

variable (s : Session)

/-- The rows of a statement are the same but for access paths, where catalogs are the same but for
indexes. -/
theorem compileRows_withoutIndexes {c d : Catalog} (hc : c.OwnsIndexes) (hd : d.OwnsIndexes)
    (h : c.bare = d.bare) (statement : Statement) :
    (fun p : Operator × List ResultColumn => (p.1.withoutIndexes, p.2)) <$>
        compileRows { s with catalog := c } statement =
      (fun p => (p.1.withoutIndexes, p.2)) <$> compileRows { s with catalog := d } statement := by
  -- Both are what the session without indexes makes of the statement without limits.
  have herase (c : Catalog) (hc : c.OwnsIndexes) :
      (fun p : Operator × List ResultColumn => (p.1.withoutIndexes, p.2)) <$>
        compileRows { s with catalog := c } statement =
      (erase .indexes { s with catalog := c }).compileRows statement.unlimited := by
    refine (compileRows_erase _ _ (fun t ht => ?_) statement).symm
    exact Table.fitsTable_indexes (hc t ht)
  have hsame : erase .indexes { s with catalog := c } = erase .indexes { s with catalog := d } := by
    unfold erase
    congr 1
  rw [herase c hc, herase d hd, hsame]

/-- Plans are the same but for access paths where the rows of their statements are. -/
theorem sameOutcome_of_compileRows {s s' : Session} {statement : Statement}
    (h : (fun p : Operator × List ResultColumn => (p.1.withoutIndexes, p.2)) <$>
        s.compileRows statement =
      (fun p => (p.1.withoutIndexes, p.2)) <$> s'.compileRows statement)
    (hints : List (Option DataType)) :
    SameOutcome (s.compile statement hints) (s'.compile statement hints) := by
  rw [compile_eq, compile_eq]
  cases statement.fixedOutcome? with
  | some outcome => exact .refl outcome
  | none =>
      have hrun := congrArg (Typing.runOn (startSlots statement hints)) h
      rw [Typing.runOn_map, Typing.runOn_map] at hrun
      revert hrun
      cases (s.compileRows statement).runOn (startSlots statement hints) with
      | error e =>
          intro hrun
          rw [map_eq_error.1 hrun.symm]
          exact .refused e
      | ok p =>
          intro hrun
          obtain ⟨q, hq, hpq⟩ := map_eq_ok.1 hrun.symm
          rw [hq]
          exact .planned (sameButAccess_plan statement hpq.symm)

/-- A statement is carried out, or refused for another reason than the shape of a key range. -/
theorem gives_compile (statement : Statement) (hints : List (Option DataType)) :
    Gives (fun outcome => ∀ p, outcome = .plan p → s.CarriesOut statement p.root)
      (s.compile statement hints) := by
  rw [compile_eq]
  cases hfixed : statement.fixedOutcome? with
  | some outcome =>
      rcases Statement.fixedOutcome?_cases hfixed with rfl | rfl | rfl
      · exact nofun
      · exact nofun
      · exact nofun
  | none =>
      have hrows := s.gives_compileRows statement (startSlots statement hints)
      refine Gives.map (hrows.imp fun rows hrows => ?_)
      rintro p ⟨⟩
      exact hrows.carriesOut

/-- Catalogs that differ only in indexes give every statement the same outcome, but for the access
paths.  None of the statements is refused for the shape of a key range, and their plans test the
whole predicates of their queries and views above the access paths. -/
theorem compile_sameOutcome {c d : Catalog} (hc : c.OwnsIndexes) (hd : d.OwnsIndexes)
    (h : c.bare = d.bare) (statement : Statement) (hints : List (Option DataType)) :
    SameOutcome (compile { s with catalog := c } statement hints)
        (compile { s with catalog := d } statement hints) ∧
      (∀ e, compile { s with catalog := c } statement hints = .error e →
        e.code ≠ .invalidArgument ∧ e.code ≠ .nonLeadingField ∧ e.code ≠ .mismatchedBounds) ∧
      ∀ p, compile { s with catalog := c } statement hints = .ok (.plan p) →
        CarriesOut { s with catalog := c } statement p.root := by
  have hgives := gives_compile { s with catalog := c } statement hints
  refine ⟨sameOutcome_of_compileRows (s.compileRows_withoutIndexes hc hd h statement) hints, ?_, ?_⟩
  · intro e he
    have hcode := hgives.of_eq_error he
    refine ⟨?_, ?_, ?_⟩ <;>
    · intro h
      rw [h] at hcode
      exact hcode rfl
  · intro p hp
    exact hgives.of_eq_ok hp p rfl

end Session

/-- A catalog with one table, which has an index. -/
def pointCatalog : Catalog :=
  ⟨⟨[{ name := "main", tables := ⟨[pointTable], List.pairwise_singleton _ _⟩ }],
    List.pairwise_singleton _ _⟩⟩

/-- The query `SELECT y FROM points WHERE x = 1`. -/
def pointQuery : Select :=
  { items := [.expr (.column none "y") none none]
    sources := [{ name := { name := "points" } }]
    predicate := some (.binary .eq (.column none "x") (.literal (.integer 1))) }

theorem compile_sameOutcome_pointCatalog :
    pointCatalog.OwnsIndexes ∧ pointCatalog.bare = pointCatalog.bare.bare ∧
      SameOutcome (Session.compile { catalog := pointCatalog, defaultSchema := "main" }
          (.select pointQuery) [])
        (Session.compile { catalog := pointCatalog.bare, defaultSchema := "main" }
          (.select pointQuery) []) := by
  have hc : pointCatalog.OwnsIndexes := by decide
  have hd : pointCatalog.bare.OwnsIndexes := by decide
  exact ⟨hc, rfl, (Session.compile_sameOutcome { catalog := pointCatalog, defaultSchema := "main" }
    hc hd rfl (.select pointQuery) []).1⟩

end QueryPlanner
