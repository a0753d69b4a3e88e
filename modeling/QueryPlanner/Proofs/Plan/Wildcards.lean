import QueryPlanner.Proofs.Binding.Wildcards
import QueryPlanner.Proofs.Plan.Limits
import QueryPlanner.Proofs.Plan.Placeholders
import QueryPlanner.Proofs.Plan.References
import QueryPlanner.Proofs.Plan.RowSource

/-!
# Plans of queries with wildcards

Columns that are written out in place of a wildcard bring no placeholders with them, and a query with
them is bound to what the query with the wildcard is bound to.  So a statement has one outcome in
both forms: one plan, or one error.

Main statement: `compile_spelledOut`.
-/

namespace QueryPlanner

/-! ## Placeholders -/

/-- Columns that are written out have no placeholders. -/
theorem SelectItem.parameters_of_writes {columns : List BoundColumn} {items : List SelectItem}
    (h : List.Forall₂ Writes columns items) :
    (items.flatMap SelectItem.exprs).flatMap Expr.parameters = [] := by
  induction h with
  | nil => rfl
  | cons hitem _ ih =>
      obtain ⟨defaultName, rfl⟩ := hitem
      exact ih

namespace Scope

variable {scope : Scope} {items items' : List SelectItem}

/-- Writing wildcards out brings no placeholders. -/
theorem placeholders_of_spellsOut (h : scope.SpellsOut items items') :
    (items'.flatMap SelectItem.exprs).flatMap Expr.parameters =
      (items.flatMap SelectItem.exprs).flatMap Expr.parameters := by
  induction h with
  | nil => rfl
  | @cons item part items items' first _ ih =>
      have hpart : (part.flatMap SelectItem.exprs).flatMap Expr.parameters =
          item.exprs.flatMap Expr.parameters := by
        cases first with
        | kept => rw [List.flatMap_singleton]
        | all _ columns => exact SelectItem.parameters_of_writes columns
        | source _ _ columns => exact SelectItem.parameters_of_writes columns
      rw [List.flatMap_append, List.flatMap_append, hpart, ih, List.flatMap_cons,
        List.flatMap_append]

theorem parameterCount_of_spellsOut {q : Select} (h : scope.SpellsOut q.items items) :
    Select.parameterCount { q with items } = q.parameterCount := by
  unfold Select.parameterCount QueryPlanner.parameterCount
  rw [Select.exprs_eq, Select.exprs_eq]
  simp only [List.flatMap_append, placeholders_of_spellsOut h]

end Scope

namespace Session

/-! ## Plans -/

variable {s : Session} {q q' : Select} {hints : List (Option DataType)}

/-- What is inserted from a query depends on how the query is compiled only. -/
theorem compileRows_insert_congr (h : s.compileSelect q = s.compileSelect q') (table : ObjectName)
    (columns : List String) : s.compileRows (.insert table columns (.select q)) =
      s.compileRows (.insert table columns (.select q')) := by
  have hsource (t : Table) (targets : List TargetColumn) :
      s.compileInsertSource t targets (.select q) =
        s.compileInsertSource t targets (.select q') := by
    show (s.compileSelect q >>= _) = s.compileSelect q' >>= _
    rw [h]
  show (s.compileInsert table columns (.select q) >>= fun root => pure (root, [])) =
    s.compileInsert table columns (.select q') >>= fun root => pure (root, [])
  unfold compileInsert
  simp only [hsource]

/-- A query that cannot be bound is refused, and with this error if its placeholders are not too
many. -/
theorem compile_of_unbound {e : PlanError} (h : s.bindSelect q = .error e) :
    ∃ e', s.compile (.select q) hints = .error e' ∧
      (q.parameterCount ≤ maxParameters → e' = e) := by
  have hrows : (s.compileRows (.select q)).runOn (startSlots (.select q) hints) = .error e := by
    show (Typing.ofExcept (s.bindSelect q) >>= _).runOn _ = _
    rw [h]
    rfl
  rw [compile_manipulation s (.select q) rfl, hrows]
  split
  next hmany => exact ⟨_, rfl, fun hfew => absurd hmany (Nat.not_lt.2 hfew)⟩
  next => exact ⟨e, rfl, fun _ => rfl⟩

/-- The outcome of a statement does not depend on whether wildcards are written out, for queries and
for queries that are inserted.  It may be any plan or any error.  No source may show two columns of
one name: the name would not say which of them is meant.  Without sources a wildcard stands for
nothing, and its query is refused; no other entry takes its place. -/
theorem compile_spelledOut (s : Session) (hints : List (Option DataType)) :
    (∀ (q : Select) (sources : Scope) (items : List SelectItem),
      q.sources.mapM (s.bindSource []) = .ok sources →
      (∀ source ∈ sources, source.DistinctColumns) → sources.SpellsOut q.items items →
        s.compile (.select { q with items }) hints = s.compile (.select q) hints ∧
        ∀ table columns, s.compile (.insert table columns (.select { q with items })) hints =
          s.compile (.insert table columns (.select q)) hints) ∧
    ∀ (q : Select) (before after : List SelectItem),
      q.sources = [] → q.items = before ++ .wildcard :: after →
        ∃ e, s.compile (.select q) hints = .error e ∧
          (q.parameterCount ≤ maxParameters → (Scope.bindItems [] before).isOk →
            e = .invalidStatement .wildcardWithoutSource) := by
  refine ⟨fun q sources items hsources hcolumns hitems => ?_,
    fun q before after hsources hitems => ?_⟩
  · have hbind : s.bindSelect { q with items } = s.bindSelect q :=
      bindSelect_spellsOut hsources hcolumns hitems
    have hselect : s.compileSelect { q with items } = s.compileSelect q := by
      unfold compileSelect
      rw [hbind]
    have hcount : Select.parameterCount { q with items } = q.parameterCount :=
      Scope.parameterCount_of_spellsOut hitems
    refine ⟨?_, fun table columns => ?_⟩
    · have hquery : s.compileRows (.select { q with items }) = s.compileRows (.select q) := hselect
      exact compile_eq_of_rows hquery rfl hcount rfl rfl rfl hints
    · have hinsert := compileRows_insert_congr hselect table columns
      exact compile_eq_of_rows hinsert rfl hcount rfl rfl rfl hints
  · have hbind := s.bindSelect_wildcard hsources hitems
    cases hbefore : Scope.bindItems [] before with
    | error e =>
        rw [hbefore] at hbind
        obtain ⟨e', he', -⟩ := compile_of_unbound hbind
        exact ⟨e', he', fun _ hok => nomatch hok⟩
    | ok results =>
        rw [hbefore] at hbind
        obtain ⟨e', he', heq⟩ := compile_of_unbound hbind
        exact ⟨e', he', fun hcount _ => heq hcount⟩

end Session

/-- The query `SELECT *, V.* FROM t AS a, v`. -/
def wildcardQuery : Select :=
  { items := [.wildcard, .qualifiedWildcard "V"]
    sources := [{ name := { name := "t" }, aliasName := some "a" }, { name := { name := "v" } }] }

/-- The select list `a.x, v.n, v.n`. -/
def writtenItems : List SelectItem :=
  [("a", "x"), ("v", "n"), ("v", "n")].map fun c => .expr (.column (some c.1) c.2) none none

theorem bindSource_renamingTable (expanding : List String) (aliasName : Option String) :
    renamingSession.bindSource expanding { name := { name := "t" }, aliasName } =
      .ok (.ofTable renamingTable aliasName) := by
  have hname : renamingSession.view? { name := "t" } = none := rfl
  have htable : renamingSession.bindTable { name := "t" } = .ok renamingTable := rfl
  rw [Session.bindSource_of_table (r := { name := { name := "t" }, aliasName }) hname, htable]
  rfl

/-- One of the sources is a view, whose query has another name for the column. -/
theorem compile_spelledOut_renamingSession :
    (∃ sources : Scope, wildcardQuery.sources.mapM (renamingSession.bindSource []) = .ok sources ∧
      (∀ source ∈ sources, source.DistinctColumns) ∧
      sources.SpellsOut wildcardQuery.items writtenItems) ∧
    renamingSession.compile (.select { wildcardQuery with items := writtenItems }) [] =
      renamingSession.compile (.select wildcardQuery) [] ∧
    renamingSession.compile (.select { items := [.wildcard] }) [] =
      .error (.invalidStatement .wildcardWithoutSource) := by
  have hview : renamingSession.bindSource [] { name := { name := "v" } } = .ok renamingSource := by
    rw [Session.bindSource_of_view (w := renamingView) rfl (by decide), Select.bindWith]
    show (Select.bindSources _ [] [{ name := { name := "t" } }] >>= _) >>= _ = _
    rw [Select.bindSources, bindSource_renamingTable]
    with_unfolding_all rfl
  have hsources : wildcardQuery.sources.mapM (renamingSession.bindSource []) =
      .ok [.ofTable renamingTable (some "a"), renamingSource] := by
    show List.mapM _ [({ name := { name := "t" }, aliasName := some "a" } : TableRef), _] = _
    rw [List.mapM_cons, bindSource_renamingTable, List.mapM_cons, hview]
    rfl
  have hdistinct : ∀ source ∈ [BoundSource.ofTable renamingTable (some "a"), renamingSource],
      source.DistinctColumns :=
    List.forall_mem_cons.2 ⟨List.pairwise_singleton _ _,
      List.forall_mem_cons.2 ⟨List.pairwise_singleton _ _, List.forall_mem_nil _⟩⟩
  have hwritten : Scope.SpellsOut [BoundSource.ofTable renamingTable (some "a"), renamingSource]
      wildcardQuery.items writtenItems := by
    have hall : List.Forall₂ SelectItem.Writes
        (Scope.references [.ofTable renamingTable (some "a"), renamingSource]) (writtenItems.take 2) :=
      .cons ⟨none, rfl⟩ (.cons ⟨none, rfl⟩ .nil)
    have hone : List.Forall₂ SelectItem.Writes (BoundSource.references renamingSource 1)
        (writtenItems.drop 2) :=
      .cons ⟨none, rfl⟩ .nil
    exact .cons (.all (List.cons_ne_nil _ _) hall) (.cons (.source rfl (by decide) hone) .nil)
  have h := renamingSession.compile_spelledOut []
  obtain ⟨e, he, hwildcard⟩ := h.2 { items := [.wildcard] } [] [] rfl rfl
  refine ⟨⟨_, hsources, hdistinct, hwritten⟩, (h.1 _ _ _ hsources hdistinct hwritten).1, ?_⟩
  rw [he, hwildcard (by decide) rfl]

end QueryPlanner
