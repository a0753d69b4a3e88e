import QueryPlanner.Proofs.Binding.Result
import QueryPlanner.Proofs.Typing.Slots

/-!
# What column references mean

A reference gives a column by the number of its source and its position there, and repeats the name,
type and collation that the source shows for it.  Here a bound expression is looked at without the
scope it was bound in: the columns of several inputs are given, and every reference has to be to one
of them.

Main statements: expressions, results and sort orders refer to columns of their scope
(`gives_foundIn_bindExpr`, `Select.Binds.foundIn`), and the source that stands for a view shows the
results of the query of the view (`View.shows_of_source`).
-/

namespace QueryPlanner

/-! ## References -/

mutual

/-- The column references of an expression. -/
def BoundExpr.columns : BoundExpr → List BoundColumn
  | .column c => [c]
  | .literal _ | .parameter _ => []
  | .binary _ left right => left.columns ++ right.columns
  | .not operand | .isNull operand _ => operand.columns
  | .between operand low high _ => operand.columns ++ (low.columns ++ high.columns)
  | .row items => BoundExpr.columnsOfItems items

def BoundExpr.columnsOfItems : List BoundExpr → List BoundColumn
  | [] => []
  | item :: rest => item.columns ++ BoundExpr.columnsOfItems rest

end

/-- What a reference says of its column. -/
def BoundColumn.shown (c : BoundColumn) : SourceColumn :=
  { name := c.name, type := c.type, collation := c.collation }

/-- A reference is to one of the columns of several inputs, and says of it what the input shows. -/
def BoundColumn.FoundIn (columns : List (List SourceColumn)) (c : BoundColumn) : Prop :=
  ∃ input, columns[c.source]? = some input ∧ input[c.position]? = some c.shown

/-- All references of an expression are to columns of several inputs. -/
def BoundExpr.FoundIn (columns : List (List SourceColumn)) (e : BoundExpr) : Prop :=
  ∀ c ∈ e.columns, c.FoundIn columns

/-! ## Scopes -/

namespace Scope

/-- The columns of the sources of a scope. -/
def columns (scope : Scope) : List (List SourceColumn) := scope.map (·.columns)

variable {scope : Scope}

/-- A reference to a column of one of the sources of a scope. -/
def Refers (scope : Scope) (c : BoundColumn) : Prop :=
  ∃ source number column, (source, number) ∈ scope.zipIdx ∧ column ∈ source.columns.zipIdx ∧
    source.reference number column = c

theorem Refers.foundIn {c : BoundColumn} (h : scope.Refers c) : c.FoundIn scope.columns := by
  obtain ⟨source, number, column, hsource, hcolumn, rfl⟩ := h
  have hnumber : scope[number]? = some source := List.mem_zipIdx_iff_getElem?.1 hsource
  have hposition : source.columns[column.2]? = some column.1 :=
    List.mem_zipIdx_iff_getElem?.1 hcolumn
  refine ⟨source.columns, ?_, hposition⟩
  show (scope.map _)[number]? = _
  rw [List.getElem?_map, hnumber]
  rfl

theorem refers_of_mem_references {source : BoundSource} {number : Nat}
    (hsource : (source, number) ∈ scope.zipIdx) {c : BoundColumn}
    (hc : c ∈ source.references number) : scope.Refers c := by
  obtain ⟨column, hcolumn, rfl⟩ := List.mem_map.1 hc
  exact ⟨source, number, column, hsource, hcolumn, rfl⟩

theorem refers_of_find? {source : BoundSource} {number : Nat}
    (hsource : (source, number) ∈ scope.zipIdx) {name : String} {c : BoundColumn}
    (hc : source.find? number name = some c) : scope.Refers c := by
  obtain ⟨column, hcolumn, rfl⟩ := Option.map_eq_some_iff.1 hc
  exact ⟨source, number, column, hsource, List.mem_of_find?_eq_some hcolumn, rfl⟩

theorem gives_refers_resolve (qualifier : Option String) (name : String) :
    Gives scope.Refers (scope.resolve qualifier name) := by
  unfold resolve
  split
  next qualifier =>
    split
    next => exact nofun
    next source number hsource =>
      split
      next => exact nofun
      next c hc => exact refers_of_find? (List.mem_of_find?_eq_some hsource) hc
  next =>
    split
    next => exact nofun
    next c hc =>
      have hmem : c ∈ scope.candidates name := hc ▸ List.mem_singleton_self c
      obtain ⟨⟨source, number⟩, hsource, hc⟩ := List.mem_filterMap.1 hmem
      exact refers_of_find? hsource hc
    next => exact nofun

theorem gives_foundIn_resolve (qualifier : Option String) (name : String) :
    Gives (·.FoundIn scope.columns) (scope.resolve qualifier name) :=
  (gives_refers_resolve qualifier name).imp fun _ h => h.foundIn

mutual

theorem gives_foundIn_bindExpr : ∀ e, Gives (·.FoundIn scope.columns) (scope.bindExpr e)
  | .column table name =>
      (gives_foundIn_resolve table name).bind fun _ hc => List.forall_mem_singleton.2 hc
  | .literal _ => nofun
  | .parameter _ => nofun
  | .binary _ left right =>
      (gives_foundIn_bindExpr left).bind fun _ hleft => (gives_foundIn_bindExpr right).bind
        fun _ hright => List.forall_mem_append.2 ⟨hleft, hright⟩
  | .not operand => (gives_foundIn_bindExpr operand).bind fun _ h => h
  | .isNull operand _ => (gives_foundIn_bindExpr operand).bind fun _ h => h
  | .between operand low high _ =>
      (gives_foundIn_bindExpr operand).bind fun _ h => (gives_foundIn_bindExpr low).bind
        fun _ hlow => (gives_foundIn_bindExpr high).bind fun _ hhigh =>
          List.forall_mem_append.2 ⟨h, List.forall_mem_append.2 ⟨hlow, hhigh⟩⟩
  | .row items => (gives_foundIn_bindExprs items).bind fun _ h => h

theorem gives_foundIn_bindExprs :
    ∀ items, Gives (fun bound => ∀ c ∈ BoundExpr.columnsOfItems bound, c.FoundIn scope.columns)
      (scope.bindExprs items)
  | [] => nofun
  | item :: rest =>
      (gives_foundIn_bindExpr item).bind fun _ hitem => (gives_foundIn_bindExprs rest).bind
        fun _ hrest => List.forall_mem_append.2 ⟨hitem, hrest⟩

end

/-- A result of an entry of a select list: a column under its own name, or the expression of the
entry. -/
inductive Shows (scope : Scope) : SelectItem → ResultItem → Prop where
  | column {item : SelectItem} {c : BoundColumn} (refers : scope.Refers c) :
      scope.Shows item (columnResult c)
  | expr {e : Expr} {aliasName defaultName : Option String} {bound : BoundExpr}
      (binds : scope.bindExpr e = .ok bound) :
      scope.Shows (.expr e aliasName defaultName)
        ⟨bound, resultName aliasName defaultName e bound⟩

theorem gives_shows_bindItem (item : SelectItem) :
    Gives (∀ result ∈ ·, scope.Shows item result) (scope.bindItem item) := by
  cases item with
  | wildcard =>
      unfold bindItem
      dsimp only
      split
      · exact nofun
      · intro result hresult
        obtain ⟨c, hc, rfl⟩ := List.mem_map.1 hresult
        obtain ⟨⟨source, number⟩, hsource, hc⟩ := List.mem_flatMap.1 hc
        exact .column (refers_of_mem_references hsource hc)
  | qualifiedWildcard table =>
      unfold bindItem
      dsimp only
      split
      next => exact nofun
      next source number hsource =>
        intro result hresult
        obtain ⟨c, hc, rfl⟩ := List.mem_map.1 hresult
        exact .column (refers_of_mem_references (List.mem_of_find?_eq_some hsource) hc)
  | expr e aliasName defaultName =>
      refine (scope.gives_bindExpr e).and_eq.bind fun bound hbound => ?_
      exact List.forall_mem_singleton.2 (.expr hbound.1)

theorem Shows.foundIn {item : SelectItem} {result : ResultItem} (h : scope.Shows item result) :
    result.expr.FoundIn scope.columns := by
  cases h with
  | column refers => exact List.forall_mem_singleton.2 refers.foundIn
  | expr binds => exact (gives_foundIn_bindExpr _).of_eq_ok binds

theorem gives_foundIn_bindOrderItem (item : OrderItem) :
    Gives (·.expr.FoundIn scope.columns) (scope.bindOrderItem item) :=
  (gives_foundIn_bindExpr item.expr).bind fun _ h => h

end Scope

/-! ## Queries -/

namespace Select.Binds

variable {bindSource : TableRef → Except PlanError BoundSource} {q : Select} {b : BoundSelect}

/-- Every result of a bound query is one of an entry of its select list. -/
theorem exists_shows (h : q.Binds bindSource b) :
    ∀ result ∈ b.results, ∃ item ∈ q.items, Scope.Shows b.sources item result := by
  obtain ⟨results, hresults, hflatten⟩ := h.results
  intro result hresult
  rw [hflatten] at hresult
  obtain ⟨shown, hshown, hresult⟩ := List.mem_flatten.1 hresult
  obtain ⟨item, hitem, hbound⟩ := exists_of_mem_mapM hresults hshown
  exact ⟨item, hitem, (Scope.gives_shows_bindItem item).of_eq_ok hbound result hresult⟩

theorem foundIn_results (h : q.Binds bindSource b) :
    ∀ item ∈ b.results, item.expr.FoundIn (Scope.columns b.sources) := by
  intro result hresult
  obtain ⟨item, -, hshows⟩ := h.exists_shows result hresult
  exact hshows.foundIn

theorem foundIn_predicate (h : q.Binds bindSource b) :
    ∀ e ∈ b.predicate, e.FoundIn (Scope.columns b.sources) :=
  (Gives.option_mapM fun _ _ => Scope.gives_foundIn_bindExpr _).of_eq_ok h.predicate

theorem foundIn_order (h : q.Binds bindSource b) :
    ∀ item ∈ b.order, item.expr.FoundIn (Scope.columns b.sources) :=
  (Gives.mapM fun item _ => Scope.gives_foundIn_bindOrderItem item).of_eq_ok h.order

/-- A query is bound in one way only. -/
theorem unique {b' : BoundSelect} (h : q.Binds bindSource b) (h' : q.Binds bindSource b') :
    b = b' := by
  obtain ⟨results, hresults, hflatten⟩ := h.results
  obtain ⟨results', hresults', hflatten'⟩ := h'.results
  have hsources : b.sources = b'.sources := Except.ok.inj (h.sources.symm.trans h'.sources)
  have hpredicate : b.predicate = b'.predicate := by
    have hbound := h.predicate
    rw [hsources, h'.predicate] at hbound
    exact (Except.ok.inj hbound).symm
  have horder : b.order = b'.order := by
    have hbound := h.order
    rw [hsources, h'.order] at hbound
    exact (Except.ok.inj hbound).symm
  rw [hsources, hresults'] at hresults
  cases hresults
  have hboth : b.results = b'.results := hflatten.trans hflatten'.symm
  have hoffset : b.offset = b'.offset := h.offset.trans h'.offset.symm
  have hlimit : b.limit = b'.limit := h.limit.trans h'.limit.symm
  cases b
  cases b'
  exact (BoundSelect.mk.injEq ..).symm ▸ ⟨hsources, hboth, hpredicate, horder, hoffset, hlimit⟩

end Select.Binds

/-! ## Views -/

/-- The type of an expression in which no placeholder has a slot. -/
def BoundExpr.closedType (e : BoundExpr) : Except PlanError (Option DataType) :=
  (e.resolve.runOn []).map Prod.fst

/-- Columns show the results of the query of a view, under the names that the view declares for them
if it does, and with the types that these results have. -/
def View.Shows (w : View) (results : List ResultItem) (columns : List SourceColumn) : Prop :=
  columns.length = results.length ∧ ∀ (i : Nat) item, results[i]? = some item →
    ∃ type, item.expr.closedType = .ok type ∧
      columns[i]? = some
        { name := w.columns[i]?.getD item.name, type, collation := resultCollation item.expr }

/-- Without slots, computations that keep the slots do not depend on one another. -/
theorem Typing.runOn_mapM_nil {α β : Type} {mayFill : UInt64 → Prop} {f : α → Typing β}
    (hf : ∀ a, Typing.Keeps mayFill β (f a)) (l : List α) :
    ((l.mapM f).runOn []).map Prod.fst = l.mapM fun a => ((f a).runOn []).map Prod.fst := by
  induction l with
  | nil => rfl
  | cons a l ih =>
      rw [List.mapM_cons, List.mapM_cons, runOn_bind, ← ih]
      cases ha : (f a).runOn [] with
      | error e => rfl
      | ok p =>
          obtain ⟨b, after⟩ := p
          have hafter : after = [] := List.eq_nil_of_length_eq_zero (hf a [] b after ha).1
          subst hafter
          show ((l.mapM f >>= fun bs => pure (b :: bs)).runOn []).map Prod.fst = _
          rw [runOn_bind]
          cases (l.mapM f).runOn [] <;> rfl

theorem View.resultTypes_eq_mapM (results : List ResultItem) :
    resultTypes results = results.mapM fun item => item.expr.closedType := by
  rw [resultTypes_eq]
  exact Typing.runOn_mapM_nil
    (fun item => (Typing.rules_keeps fun _ => True).resolve fun _ _ => trivial) results

/-- A source that stands for a view shows the results of its query. -/
theorem View.shows_of_source {w : View} {aliasName : Option String} {q : BoundSelect}
    {source : BoundSource} (h : w.source aliasName q = .ok source) :
    w.Shows q.results source.columns := by
  obtain ⟨-, types, htypes, rfl⟩ := View.source_eq_ok_iff.1 h
  rw [resultTypes_eq_mapM] at htypes
  obtain ⟨hlength, htypes⟩ := getElem?_of_mapM htypes
  refine ⟨by simp [hlength], fun i item hitem => ?_⟩
  obtain ⟨type, htype, hclosed⟩ := htypes i item hitem
  have hpair : (q.results.zip types)[i]? = some (item, type) :=
    List.getElem?_zip_eq_some.2 ⟨hitem, htype⟩
  refine ⟨type, hclosed, ?_⟩
  simp [hpair]

end QueryPlanner
