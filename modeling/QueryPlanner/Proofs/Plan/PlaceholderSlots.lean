import Mathlib.Algebra.Group.Nat.Defs
import QueryPlanner.Proofs.AccessPath.Placeholders
import QueryPlanner.Proofs.Plan.Inputs
import QueryPlanner.Proofs.Plan.Rerun

/-!
# Plans have slots for their placeholders

A plan mentions placeholders in its predicates, results, sort orders, rows, assignments and key
ranges, at any depth.  All of them are placeholders of the statement, which were counted before it
was compiled: the plan has a slot for each, and the bodies of views mention none.  Statements with a
placeholder too high to be counted are refused before anything is looked up.

Main statement: `compile_placeholders`.
-/

namespace QueryPlanner

theorem flatMap_subset {α β : Type} {l : List α} {f : α → List β} {l' : List β}
    (h : ∀ a ∈ l, f a ⊆ l') : l.flatMap f ⊆ l' := by
  intro b hb
  obtain ⟨a, ha, hb⟩ := List.mem_flatMap.1 hb
  exact h a ha hb

theorem subset_flatMap_of_mem {α β : Type} {l : List α} (f : α → List β) {a : α} (ha : a ∈ l) :
    f a ⊆ l.flatMap f := fun _ hb => List.mem_flatMap.2 ⟨a, ha, hb⟩

/-! ## Placeholders of operators -/

mutual

/-- The placeholders of an operator and of everything below it. -/
def Operator.placeholders : Operator → List UInt64
  | .tableScan _ => []
  | .indexScan range => range.placeholders
  | .values rows => rows.flatten.flatMap BoundExpr.placeholders
  | .filter predicate input => predicate.placeholders ++ input.placeholders
  | .product inputs => Operator.placeholdersOfInputs inputs
  | .project results input => results.flatMap (·.expr.placeholders) ++ input.placeholders
  | .sort order input => order.flatMap (·.expr.placeholders) ++ input.placeholders
  | .insert _ _ input | .delete _ input => input.placeholders
  | .update _ assignments input =>
      assignments.flatMap (·.2.placeholders) ++ input.placeholders

def Operator.placeholdersOfInputs : List Operator → List UInt64
  | [] => []
  | input :: rest => input.placeholders ++ Operator.placeholdersOfInputs rest

end

namespace Operator

theorem placeholdersOfInputs_eq (inputs : List Operator) :
    placeholdersOfInputs inputs = inputs.flatMap placeholders := by
  induction inputs with
  | nil => rfl
  | cons input rest ih => rw [placeholdersOfInputs, ih, List.flatMap_cons]

theorem placeholders_combine (inputs : List Operator) :
    (combine inputs).placeholders = inputs.flatMap placeholders := by
  match inputs with
  | [] => rfl
  | [input] => exact (List.flatMap_singleton placeholders input).symm
  | first :: second :: rest => exact placeholdersOfInputs_eq (first :: second :: rest)

theorem placeholders_restrict (predicate : Option BoundExpr) (input : Operator) :
    (restrict predicate input).placeholders =
      predicate.toList.flatMap BoundExpr.placeholders ++ input.placeholders := by
  cases predicate <;> simp [restrict, placeholders]

theorem placeholders_arrange (order : List BoundOrderItem) (input : Operator) :
    (arrange order input).placeholders =
      order.flatMap (·.expr.placeholders) ++ input.placeholders := by
  cases order <;> simp [arrange, placeholders]

end Operator

/-! ## Counting -/

private theorem le_foldl_max (f : UInt64 → Nat) (l : List UInt64) (n : Nat) :
    n ≤ l.foldl (fun n i => max n (f i)) n ∧ ∀ i ∈ l, f i ≤ l.foldl (fun n i => max n (f i)) n := by
  induction l generalizing n with
  | nil => exact ⟨Nat.le_refl n, nofun⟩
  | cons first rest ih =>
      obtain ⟨hstart, hrest⟩ := ih (max n (f first))
      rw [List.foldl_cons, List.forall_mem_cons]
      refine ⟨?_, ?_, hrest⟩ <;> omega

/-- A placeholder is counted, up to the largest count. -/
theorem le_parameterCount {exprs : List Expr} {i : UInt64}
    (h : i ∈ exprs.flatMap Expr.parameters) :
    min (i.toNat + 1) (UInt64.size - 1) ≤ parameterCount exprs :=
  (le_foldl_max (fun i => min (i.toNat + 1) (UInt64.size - 1)) _ 0).2 i h

/-- The placeholders of a statement. -/
def Statement.placeholders (statement : Statement) : List UInt64 :=
  statement.exprs.flatMap Expr.parameters

/-- Placeholders that may have a slot can all be counted. -/
theorem maxParameters_lt_size : Session.maxParameters < UInt64.size - 1 := by decide

theorem parameters_eq_nil {q : Select} (h : q.parameterCount = 0) :
    q.exprs.flatMap Expr.parameters = [] := by
  refine List.eq_nil_iff_forall_not_mem.2 fun i hi => ?_
  have hle := le_parameterCount hi
  have hcount : parameterCount q.exprs = 0 := h
  have hsize := maxParameters_lt_size
  omega

/-- Where few placeholders are counted, each of them is. -/
theorem toNat_lt_parameterCount {exprs : List Expr}
    (hcount : parameterCount exprs ≤ Session.maxParameters) {i : UInt64}
    (h : i ∈ exprs.flatMap Expr.parameters) : i.toNat < parameterCount exprs := by
  have hle := le_parameterCount h
  have hsize := maxParameters_lt_size
  omega

/-- A placeholder that cannot have a slot makes for too many. -/
theorem maxParameters_lt_parameterCount {exprs : List Expr} {i : UInt64}
    (h : i ∈ exprs.flatMap Expr.parameters) (hi : Session.maxParameters ≤ i.toNat) :
    Session.maxParameters < parameterCount exprs := by
  have hle := le_parameterCount h
  have hsize := maxParameters_lt_size
  omega

/-- Counting from one does not overflow for placeholders that may be counted. -/
theorem placeholder_eq {i : UInt64} (h : i.toNat < Session.maxParameters) :
    placeholder i = "$" ++ toString (i.toNat + 1) := by
  have hsucc : (i + 1).toNat = i.toNat + 1 := by
    have hsize : Session.maxParameters + 1 < UInt64.size :=
      Nat.lt_sub_iff_add_lt.1 maxParameters_lt_size
    rw [UInt64.toNat_add]
    exact Nat.mod_eq_of_lt (Nat.lt_trans (Nat.succ_lt_succ h) hsize)
  rw [placeholder, hsucc]

/-! ## Binding keeps placeholders -/

namespace Scope

variable (scope : Scope)

mutual

theorem gives_placeholders_bindExpr :
    ∀ e, Gives (·.placeholders = e.parameters) (scope.bindExpr e)
  | .column table name => (gives_foundIn_resolve table name).bind fun _ _ => rfl
  | .literal _ => rfl
  | .parameter _ => rfl
  | .binary _ left right =>
      (gives_placeholders_bindExpr left).bind fun _ hleft =>
        (gives_placeholders_bindExpr right).bind fun _ hright => by
          rw [Expr.parameters, ← hleft, ← hright]
          rfl
  | .not operand => (gives_placeholders_bindExpr operand).bind fun _ h => h
  | .isNull operand _ => (gives_placeholders_bindExpr operand).bind fun _ h => h
  | .between operand low high _ =>
      (gives_placeholders_bindExpr operand).bind fun _ h =>
        (gives_placeholders_bindExpr low).bind fun _ hlow =>
          (gives_placeholders_bindExpr high).bind fun _ hhigh => by
            rw [Expr.parameters, ← h, ← hlow, ← hhigh]
            rfl
  | .row items => (gives_placeholders_bindExprs items).bind fun _ h => h

theorem gives_placeholders_bindExprs :
    ∀ items, Gives (BoundExpr.placeholdersOfItems · = Expr.parametersItems items)
      (scope.bindExprs items)
  | [] => rfl
  | item :: rest =>
      (gives_placeholders_bindExpr item).bind fun _ hitem =>
        (gives_placeholders_bindExprs rest).bind fun _ hrest => by
          rw [Expr.parametersItems, ← hitem, ← hrest]
          rfl

end

theorem flatMap_placeholders_columnResult (columns : List BoundColumn) :
    (columns.map columnResult).flatMap (·.expr.placeholders) = [] := by
  induction columns with
  | nil => rfl
  | cons column columns ih => exact ih

theorem gives_placeholders_bindItem (item : SelectItem) :
    Gives (fun results => results.flatMap (·.expr.placeholders) =
      item.exprs.flatMap Expr.parameters) (scope.bindItem item) := by
  cases item with
  | wildcard =>
      rw [bindItem]
      split
      · exact fun h => by cases h
      · exact flatMap_placeholders_columnResult _
  | qualifiedWildcard table =>
      rw [bindItem]
      split
      next => exact fun h => by cases h
      next => exact flatMap_placeholders_columnResult _
  | expr e aliasName defaultName =>
      refine (scope.gives_placeholders_bindExpr e).bind fun bound hbound => ?_
      show bound.placeholders ++ [] = e.parameters ++ []
      rw [hbound]

end Scope

namespace BoundSelect

/-- The placeholders of the expressions of a query, without those of its sources. -/
def placeholders (b : BoundSelect) : List UInt64 :=
  b.results.flatMap (·.expr.placeholders) ++ b.predicate.toList.flatMap BoundExpr.placeholders ++
    b.order.flatMap (·.expr.placeholders)

end BoundSelect

theorem Select.Binds.placeholders {bindSource : TableRef → Except PlanError BoundSource}
    {q : Select} {b : BoundSelect} (h : q.Binds bindSource b) :
    b.placeholders = q.exprs.flatMap Expr.parameters := by
  obtain ⟨results, hitems, hresults⟩ := h.results
  have hitems' : b.results.flatMap (·.expr.placeholders) =
      (q.items.flatMap SelectItem.exprs).flatMap Expr.parameters := by
    rw [hresults, List.flatMap_assoc, List.flatten_eq_flatMap, List.flatMap_assoc]
    exact flatMap_of_mapM (fun item _ hbound =>
      (Scope.gives_placeholders_bindItem b.sources item).of_eq_ok hbound) hitems
  have hpredicate : b.predicate.toList.flatMap BoundExpr.placeholders =
      q.predicate.toList.flatMap Expr.parameters :=
    flatMap_of_option_mapM (fun e _ hbound =>
      (Scope.gives_placeholders_bindExpr b.sources e).of_eq_ok hbound) h.predicate
  have horder : b.order.flatMap (·.expr.placeholders) =
      (q.order.map (·.expr)).flatMap Expr.parameters := by
    rw [List.flatMap_map]
    refine flatMap_of_mapM (fun item bound hbound => ?_) h.order
    obtain ⟨e, he, hbound⟩ := bind_eq_ok.1 hbound
    cases hbound
    exact (Scope.gives_placeholders_bindExpr b.sources item.expr).of_eq_ok he
  unfold BoundSelect.placeholders
  rw [hitems', hpredicate, horder, Select.exprs_eq, List.flatMap_append, List.flatMap_append]

/-! ## Queries -/

/-- An access path mentions placeholders of the conjuncts only. -/
theorem Table.placeholders_access {t : Table} {source : Nat} {conjuncts : List BoundExpr}
    {op : Operator} (h : t.access source conjuncts = .ok op) :
    op.placeholders ⊆ conjuncts.flatMap BoundExpr.placeholders := by
  obtain ⟨range, hrange, h⟩ := bind_eq_ok.1 h
  cases range with
  | none =>
      cases h
      exact List.nil_subset _
  | some range =>
      cases h
      exact placeholders_of_chooseRange hrange

namespace Session

variable {s : Session} {expanding : List String}

/-- The operator of a source mentions placeholders of the conjuncts only, and none if the source is
a view. -/
def Mentions (s : Session) (expanding : List String) (r : TableRef) : Prop :=
  ∀ source, s.bindSource expanding r = .ok source → ∀ conjuncts number op,
    source.operator conjuncts number = .ok op →
      op.placeholders ⊆ conjuncts.flatMap BoundExpr.placeholders ∧
        ∀ w, s.view? r.name = some w → op.placeholders = []

theorem placeholders_operator {q : Select} (h : ∀ r ∈ q.sources, s.Mentions expanding r)
    {b : BoundSelect} (hb : q.bindWith (s.bindSource expanding) = .ok b) {op : Operator}
    (hop : b.operator = .ok op) : op.placeholders ⊆ q.exprs.flatMap Expr.parameters := by
  have hbinds := Select.bindWith_eq_ok hb
  rw [← hbinds.placeholders]
  obtain ⟨inputs, hinputs, rfl⟩ := BoundSelect.operator_eq_ok.1 hop
  have hconjuncts : (b.predicate.toList.flatMap BoundExpr.conjuncts).flatMap
      BoundExpr.placeholders = b.predicate.toList.flatMap BoundExpr.placeholders := by
    rw [List.flatMap_assoc]
    exact congrArg (List.flatMap · b.predicate.toList) (funext BoundExpr.placeholders_conjuncts)
  have hbelow : inputs.flatMap Operator.placeholders ⊆
      b.predicate.toList.flatMap BoundExpr.placeholders := by
    rw [← hconjuncts]
    refine flatMap_subset fun input hinput => ?_
    obtain ⟨source, hsource, number, hop⟩ := exists_of_mem_sourceOperators hinputs hinput
    obtain ⟨r, hr, hbound⟩ := exists_of_mem_mapM hbinds.sources hsource
    exact (h r hr source hbound _ number input hop).1
  rw [Operator.placeholders, Operator.placeholders_arrange, Operator.placeholders_restrict,
    Operator.placeholders_combine]
  unfold BoundSelect.placeholders
  intro i hi
  have hinput := @hbelow i
  simp only [List.mem_append] at hi ⊢
  tauto

/-- The operators of sources mention no other placeholders than the conjuncts, by induction on the
views that are not being expanded. -/
theorem mentions (s : Session) (expanding : List String) : ∀ r, s.Mentions expanding r := by
  induction expanding using s.expansion_induction with
  | inside expanding ih =>
      intro r source h conjuncts number op hop
      obtain ⟨hview, t, -, rfl⟩ | ⟨w, hview, hkey, b, hb, hsource⟩ := bindSource_eq_ok h
      · refine ⟨Table.placeholders_access hop, fun w hw => ?_⟩
        cases hview.symm.trans hw
      · rw [View.operator_of_source hsource] at hop
        obtain ⟨_, -, hop⟩ := bind_eq_ok.1 hop
        have hsubset := placeholders_operator
          (fun r _ => ih w (mem_views_of_view? hview) hkey r) hb hop
        rw [parameters_eq_nil w.parameterFree] at hsubset
        have hnone := List.eq_nil_of_subset_nil hsubset
        exact ⟨hnone ▸ List.nil_subset _, fun _ _ => hnone⟩

end Session

/-! ## Statements -/

namespace Table

theorem gives_placeholders_filteredAccess (t : Table) (scope : Scope) (predicate : Option Expr) :
    Typing.Gives (·.placeholders ⊆ predicate.toList.flatMap Expr.parameters)
      (t.filteredAccess scope predicate) := by
  cases predicate with
  | none =>
      refine .ofExcept ((t.gives_access 0 []).and_eq.imp fun op hop => ?_)
      exact placeholders_access hop.1
  | some e =>
      refine (Typing.Gives.ofExcept (scope.gives_placeholders_bindExpr e)).bind fun b hb => ?_
      refine (Typing.rules_gives.resolvePredicate fun _ _ => trivial).bind fun _ _ => ?_
      refine (Typing.Gives.ofExcept (t.gives_access 0 b.conjuncts).and_eq).bind fun op hop => ?_
      refine .pure ?_
      have hscan := placeholders_access hop.1
      rw [BoundExpr.placeholders_conjuncts] at hscan
      rw [Operator.placeholders, Option.toList_some, List.flatMap_singleton, ← hb]
      exact List.append_subset.2 ⟨List.Subset.refl _, hscan⟩

theorem gives_placeholders_valueRow (t : Table) (targets : List TargetColumn) (row : List Expr) :
    Typing.Gives (∀ value ∈ ·, value.placeholders ⊆ row.flatMap Expr.parameters)
      (t.valueRow targets row) := by
  refine (Typing.Gives.ofExcept (gives_checkWidth _ _)).bind fun _ _ => ?_
  refine Typing.Gives.mapM fun (target, e) hpair => ?_
  have he : e ∈ row := (List.of_mem_zip hpair).2
  refine (Typing.Gives.ofExcept (Scope.gives_placeholders_bindExpr [] e)).bind fun b hb => ?_
  refine (Typing.rules_gives.resolveFor (fun _ _ => trivial) _).bind fun _ _ => .pure ?_
  rw [hb]
  exact subset_flatMap_of_mem Expr.parameters he

end Table

/-- The query that a statement gives the results of, or inserts them. -/
def Statement.query? : Statement → Option Select
  | .select q | .insert _ _ (.select q) => some q
  | _ => none

/-- The operator of the query of a statement, below the insertion of its results if it has one. -/
def Operator.queryRoot : Operator → Operator
  | .insert _ _ input => input
  | op => op

theorem BoundSelect.queryRoot_of_operator {b : BoundSelect} {op : Operator}
    (h : b.operator = .ok op) : op.queryRoot = op := by
  obtain ⟨inputs, -, rfl⟩ := operator_eq_ok.1 h
  rfl

namespace Session

variable (s : Session)

/-- The operator is that of a query, and mentions placeholders of the query only. -/
structure OfQuery (q : Select) (op : Operator) : Prop where
  operator : ∃ b, s.bindSelect q = .ok b ∧ b.operator = .ok op
  placeholders : op.placeholders ⊆ q.exprs.flatMap Expr.parameters

theorem gives_ofQuery (q : Select) :
    Typing.Gives (fun rows => s.OfQuery q rows.1) (s.compileSelect q) := by
  refine (Typing.Gives.ofExcept (s.gives_bindSelect q).and_eq).bind fun b hb => ?_
  refine b.gives_resolve.bind fun results _ => ?_
  have hop := gives_operator_of_sources (gives_operator_of_bindSource s []) hb.1
  refine (Typing.Gives.ofExcept hop.and_eq).bind fun op hop => .pure ⟨⟨b, hb.1, hop.1⟩, ?_⟩
  exact placeholders_operator (fun r _ => s.mentions [] r) hb.1 hop.1

/-- The operators of a statement mention placeholders of the statement only, and those of its query
are among them. -/
structure Accounts (statement : Statement) (op : Operator) : Prop where
  placeholders : op.placeholders ⊆ statement.placeholders
  query : ∀ q, statement.query? = some q →
    ∃ b, s.bindSelect q = .ok b ∧ b.operator = .ok op.queryRoot

theorem Accounts.of_query?_eq_none {s : Session} {statement : Statement} {op : Operator}
    (hquery : statement.query? = none) (h : op.placeholders ⊆ statement.placeholders) :
    s.Accounts statement op :=
  ⟨h, fun q hq => by rw [hquery] at hq; cases hq⟩

theorem gives_placeholders_values (t : Table) (targets : List TargetColumn)
    (rows : List (List Expr)) :
    Typing.Gives (·.placeholders ⊆ rows.flatten.flatMap Expr.parameters)
      (s.compileInsertSource t targets (.values rows)) := by
  have hrow : ∀ row ∈ rows, Typing.Gives
      (fun bound => ∀ value ∈ bound, value.placeholders ⊆ rows.flatten.flatMap Expr.parameters)
      (t.valueRow targets row) := by
    intro row hrow
    refine (t.gives_placeholders_valueRow targets row).imp fun bound hbound value hvalue => ?_
    refine List.Subset.trans (hbound value hvalue) (flatMap_subset fun e he => ?_)
    exact subset_flatMap_of_mem Expr.parameters (List.mem_flatten_of_mem hrow he)
  refine (Typing.Gives.mapM hrow).bind fun bound hbound => .pure (flatMap_subset ?_)
  intro value hvalue
  obtain ⟨row, hrow, hvalue⟩ := List.mem_flatten.1 hvalue
  exact hbound row hrow value hvalue

theorem gives_accounts_compileInsert (table : ObjectName) (columns : List String)
    (source : InsertSource) :
    Typing.Gives (s.Accounts (.insert table columns source))
      (s.compileInsert table columns source) := by
  rw [compileInsert_eq]
  refine (Typing.Gives.ofExcept (s.gives_bindTable table)).bind fun t _ => ?_
  refine (Typing.Gives.ofExcept (t.gives_insertTargets columns)).bind fun targets _ => ?_
  cases source with
  | values rows =>
      refine (s.gives_placeholders_values t targets rows).bind fun op hop => ?_
      exact .pure (.of_query?_eq_none rfl hop)
  | select q =>
      have hquery : Typing.Gives (s.OfQuery q) (s.compileInsertSource t targets (.select q)) := by
        refine (s.gives_ofQuery q).bind fun (op, results) hop => ?_
        refine (Typing.Gives.ofExcept (Table.gives_checkWidth _ _)).bind fun _ _ => ?_
        refine (Typing.Gives.ofExcept (t.gives_checkResults _ _)).bind fun _ _ => ?_
        exact .pure hop
      refine hquery.bind fun op hop => .pure ⟨hop.placeholders, ?_⟩
      rintro _ ⟨⟩
      exact hop.operator

theorem gives_placeholders_compileAssignment (t : Table) (scope : Scope) (a : Assignment) :
    Typing.Gives (·.2.placeholders = a.value.parameters) (compileAssignment t scope a) := by
  refine (Typing.Gives.ofExcept (t.gives_target a.column)).bind fun target _ => ?_
  refine (Typing.Gives.ofExcept (scope.gives_placeholders_bindExpr a.value)).bind fun value hv => ?_
  exact (Typing.rules_gives.resolveFor (fun _ _ => trivial) _).bind fun _ _ => .pure hv

/-- Compiling gives operators that mention the placeholders of the statement only. -/
theorem gives_accounts_compileRows (statement : Statement) :
    Typing.Gives (fun rows => s.Accounts statement rows.1) (s.compileRows statement) := by
  cases statement with
  | select q =>
      refine (s.gives_ofQuery q).imp fun rows hrows => ⟨hrows.placeholders, ?_⟩
      rintro _ ⟨⟩
      obtain ⟨b, hb, hop⟩ := hrows.operator
      exact ⟨b, hb, hop.trans (congrArg Except.ok (BoundSelect.queryRoot_of_operator hop).symm)⟩
  | insert table columns source =>
      exact (s.gives_accounts_compileInsert table columns source).bind fun op hop => .pure hop
  | update table assignments predicate =>
      refine Typing.Gives.bind (P := s.Accounts (.update table assignments predicate)) ?_
        fun op hop => .pure hop
      refine (Typing.Gives.ofExcept (s.gives_bindTable table)).bind fun t _ => ?_
      have hvalues : Typing.Gives
          (∀ a ∈ ·, a.2.placeholders ⊆ (assignments.map (·.value)).flatMap Expr.parameters)
          (assignments.mapM (compileAssignment t [.ofTable t none])) := by
        refine Typing.Gives.mapM fun a ha => ?_
        refine (gives_placeholders_compileAssignment t _ a).imp fun bound hbound => ?_
        rw [hbound]
        exact subset_flatMap_of_mem Expr.parameters (List.mem_map_of_mem ha)
      refine hvalues.bind fun bound hbound => ?_
      refine (t.gives_placeholders_filteredAccess _ predicate).bind fun op hop => ?_
      refine .pure (.of_query?_eq_none rfl ?_)
      rw [Statement.placeholders, Statement.exprs, List.flatMap_append, Operator.placeholders]
      exact List.append_subset.2 ⟨List.subset_append_of_subset_left _ (flatMap_subset hbound),
        List.subset_append_of_subset_right _ hop⟩
  | delete table predicate =>
      refine Typing.Gives.bind (P := s.Accounts (.delete table predicate)) ?_
        fun op hop => .pure hop
      refine (Typing.Gives.ofExcept (s.gives_bindTable table)).bind fun t _ => ?_
      refine (t.gives_placeholders_filteredAccess _ predicate).bind fun op hop => ?_
      exact .pure (.of_query?_eq_none rfl hop)
  | _ => exact .throw fun h => by cases h

/-- A plan has a slot for every placeholder of its statement, at most 65535 of them, and mentions no
other placeholders, however deep; where it reads a view it mentions none.  A statement with a
placeholder that is too high to have one of these slots is refused, whatever the session.  All other
placeholders are written with their number counted from one. -/
theorem compile_placeholders (s : Session) (statement : Statement)
    (hints : List (Option DataType)) :
    (∀ p, s.compile statement hints = .ok (.plan p) →
      p.parameters.length = statement.parameterCount ∧ statement.parameterCount ≤ 65535 ∧
        (∀ i ∈ p.root.placeholders, i.toNat < p.parameters.length ∧
          placeholder i = "$" ++ toString (i.toNat + 1)) ∧
        ∀ q, statement.query? = some q → ∀ (n : Nat) r w, q.sources[n]? = some r →
          s.view? r.name = some w →
            ∃ body, p.root.queryRoot.scope[n]? = some body ∧ body.placeholders = []) ∧
    (statement.category = .manipulation → ∀ i ∈ statement.placeholders,
      (65535 ≤ i.toNat → s.compile statement hints = .error (.invalidStatement
        (.tooManyParameters statement.parameterCount 65535))) ∧
      (i.toNat < 65535 → placeholder i = "$" ++ toString (i.toNat + 1))) := by
  refine ⟨fun p h => ?_, fun hcategory i hi => ⟨fun hhigh => ?_, placeholder_eq⟩⟩
  · obtain ⟨hfixed, rows, hrows, rfl⟩ := compile_eq_plan h
    have hcount := Statement.parameterCount_le_of_fixedOutcome? hfixed
    have hlength : (statement.plan rows).parameters.length = statement.parameterCount := by
      rw [← startSlots_parameters h, Slots.length_ofHints]
    have haccounts := (s.gives_accounts_compileRows statement _).of_eq_ok hrows
    refine ⟨hlength, hcount, fun i hi => ?_, fun q hq n r w hr hview => ?_⟩
    · have hlt := toNat_lt_parameterCount hcount (haccounts.placeholders hi)
      exact ⟨hlength ▸ hlt, placeholder_eq (Nat.lt_of_lt_of_le hlt hcount)⟩
    · obtain ⟨b, hb, hop⟩ := haccounts.query q hq
      obtain ⟨-, hplaces⟩ := getElem?_of_mapM (Select.bindWith_eq_ok hb).sources
      obtain ⟨source, hplace, hbound⟩ := hplaces n r hr
      obtain ⟨body, hbody, hoperator⟩ := (BoundSelect.scope_operator hop).2 n source hplace
      exact ⟨body, hbody, (s.mentions [] r source hbound _ n body hoperator).2 w hview⟩
  · have hmany : maxParameters < statement.parameterCount :=
      maxParameters_lt_parameterCount hi hhigh
    rw [compile_eq, Statement.fixedOutcome?, hcategory]
    dsimp only
    rw [if_pos hmany]
    rfl

end Session

/-- The query `SELECT n FROM t, v WHERE x < $1`. -/
def belowQuery : Select :=
  { items := [.expr (.column none "n") none none]
    sources := [{ name := { name := "t" } }, { name := { name := "v" } }]
    predicate := some (.binary .lt (.column none "x") (.parameter 0)) }

def belowBound : BoundSelect :=
  { renamingBound with
    predicate := some (.binary .lt (.column renamedColumn) (.parameter 0)) }

def belowPlan : Plan :=
  { renamingPlan with
    root := .project belowBound.results
      (.filter (.binary .lt (.column renamedColumn) (.parameter 0))
        (.product [.tableScan renamingTable.name,
          .project [⟨.column renamedColumn, "x"⟩] (.tableScan renamingTable.name)]))
    parameters := [some .integer] }

theorem compile_placeholders_renamingSession :
    (∃ p, renamingSession.compile (.select belowQuery) [] = .ok (.plan p) ∧
      p.parameters.length = 1 ∧ (∀ i ∈ p.root.placeholders, i.toNat < 1) ∧
      ∃ body, p.root.queryRoot.scope[1]? = some body ∧ body.placeholders = []) ∧
    renamingSession.compile (.delete { name := "t" } (some (.parameter (-1)))) [] =
      .error (.invalidStatement (.tooManyParameters (2 ^ 64 - 1) 65535)) := by
  have hbound : renamingSession.bindSelect belowQuery = .ok belowBound :=
    Session.bindSelect_of_run (by with_unfolding_all rfl)
  have hrows : (renamingSession.compileRows (.select belowQuery)).runOn [none] =
      .ok ((belowPlan.root, belowPlan.results), belowPlan.parameters) := by
    rw [Session.compileRows, Session.compileSelect, hbound]
    with_unfolding_all rfl
  have hplan : renamingSession.compile (.select belowQuery) [] = .ok (.plan belowPlan) := by
    have hslots : Session.startSlots (.select belowQuery) [] = [none] := rfl
    rw [Session.compile_eq, hslots, hrows]
    rfl
  obtain ⟨hplaces, -⟩ := renamingSession.compile_placeholders (.select belowQuery) []
  obtain ⟨-, hrefused⟩ := renamingSession.compile_placeholders
    (.delete { name := "t" } (some (.parameter (-1)))) []
  obtain ⟨hlength, -, hslots, hviews⟩ := hplaces _ hplan
  have hcount : (Statement.select belowQuery).parameterCount = 1 := rfl
  rw [hcount] at hlength
  refine ⟨⟨_, hplan, hlength, fun i hi => hlength ▸ (hslots i hi).1, ?_⟩, ?_⟩
  · exact hviews belowQuery rfl 1 _ renamingView rfl rfl
  · exact (hrefused rfl (-1) (List.mem_singleton_self _)).1 (by decide)

end QueryPlanner
