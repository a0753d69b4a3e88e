import QueryPlanner.Proofs.Plan.References

/-!
# The inputs of a query

The operator of a query reads from the operators of its sources, which are found below it in the
order of the sources.

Main statement: `BoundSelect.scope_operator`.
-/

namespace QueryPlanner

/-- What the operator of a query is made of. -/
theorem BoundSelect.operator_eq_ok {b : BoundSelect} {op : Operator} :
    b.operator = .ok op ↔ ∃ inputs,
      sourceOperators (b.predicate.toList.flatMap BoundExpr.conjuncts) 0 b.sources = .ok inputs ∧
        .project b.results (.arrange b.order (.restrict b.predicate (.combine inputs))) = op := by
  obtain ⟨sources, results, predicate, order, offset, limit⟩ := b
  show (sourceOperators _ 0 sources >>= fun inputs => Except.ok _) = _ ↔ _
  simp only [bind_eq_ok, Except.ok.injEq]

/-- The operator of a source is where rows come from, for tables and views alike. -/
theorem BoundSource.sources_operator {source : BoundSource} {conjuncts : List BoundExpr}
    {number : Nat} {op : Operator} (h : source.operator conjuncts number = .ok op) :
    op.sources = [op] := by
  obtain ⟨aliasName, origin, columns⟩ := source
  cases origin with
  | table t =>
      have hreads := (t.gives_access number conjuncts).of_eq_ok h
      cases hreads <;> rfl
  | view name query =>
      obtain ⟨_, -, h⟩ := bind_eq_ok.1 h
      obtain ⟨inputs, -, rfl⟩ := BoundSelect.operator_eq_ok.1 h
      rfl

/-- The operator of a source that stands for a view is that of the query of the view. -/
theorem View.operator_of_source {w : View} {aliasName : Option String} {b : BoundSelect}
    {source : BoundSource} (h : w.source aliasName b = .ok source) (conjuncts : List BoundExpr)
    (number : Nat) :
    source.operator conjuncts number = discard (b.resolve.runOn []) >>= fun _ => b.operator := by
  have horigin := View.origin_of_source h
  obtain ⟨aliasName, origin, columns⟩ := source
  subst horigin
  rfl

/-- The sources are numbered in order. -/
theorem sourceOperators_eq_mapM (conjuncts : List BoundExpr) (number : Nat)
    (sources : List BoundSource) :
    sourceOperators conjuncts number sources =
      (sources.zipIdx number).mapM fun (source, n) => source.operator conjuncts n := by
  induction sources generalizing number with
  | nil => rfl
  | cons source rest ih =>
      rw [sourceOperators, List.zipIdx_cons, List.mapM_cons, ih]

/-- Operators stand at the places of their sources. -/
theorem getElem?_of_sourceOperators {conjuncts : List BoundExpr} {number : Nat}
    {sources : List BoundSource} {ops : List Operator}
    (h : sourceOperators conjuncts number sources = .ok ops) :
    ops.length = sources.length ∧ ∀ (n : Nat) source, sources[n]? = some source →
      ∃ op, ops[n]? = some op ∧ source.operator conjuncts (number + n) = .ok op := by
  rw [sourceOperators_eq_mapM] at h
  obtain ⟨hlength, hplaces⟩ := getElem?_of_mapM h
  rw [List.length_zipIdx] at hlength
  refine ⟨hlength, fun n source hsource => hplaces n (source, number + n) ?_⟩
  rw [List.getElem?_zipIdx, hsource]
  rfl

/-- Every operator of sources is that of one of them. -/
theorem exists_of_mem_sourceOperators {conjuncts : List BoundExpr} {number : Nat}
    {sources : List BoundSource} {ops : List Operator}
    (h : sourceOperators conjuncts number sources = .ok ops) {op : Operator} (hop : op ∈ ops) :
    ∃ source ∈ sources, ∃ n, source.operator conjuncts n = .ok op := by
  rw [sourceOperators_eq_mapM] at h
  obtain ⟨⟨source, n⟩, hsource, hoperator⟩ := exists_of_mem_mapM h hop
  exact ⟨source, List.fst_mem_of_mem_zipIdx hsource, n, hoperator⟩

/-- The inputs of the operator of a query are the operators of its sources. -/
theorem BoundSelect.scope_operator {b : BoundSelect} {op : Operator} (h : b.operator = .ok op) :
    op.scope.length = b.sources.length ∧ ∀ (n : Nat) source, b.sources[n]? = some source →
      ∃ input, op.scope[n]? = some input ∧
        source.operator (b.predicate.toList.flatMap BoundExpr.conjuncts) n = .ok input := by
  obtain ⟨inputs, hinputs, rfl⟩ := operator_eq_ok.1 h
  obtain ⟨hlength, hplaces⟩ := getElem?_of_sourceOperators hinputs
  have hself : ∀ input ∈ inputs, input.sources = [input] := by
    intro input hinput
    obtain ⟨source, -, n, hop⟩ := exists_of_mem_sourceOperators hinputs hinput
    exact BoundSource.sources_operator hop
  have hscope : (Operator.project b.results
      (.arrange b.order (.restrict b.predicate (.combine inputs)))).scope = inputs := by
    rw [Operator.scope, Operator.sources_arrange, Operator.sources_restrict,
      Operator.sources_combine hself]
  rw [hscope]
  refine ⟨hlength, fun n source hsource => ?_⟩
  simpa only [Nat.zero_add] using hplaces n source hsource

end QueryPlanner
