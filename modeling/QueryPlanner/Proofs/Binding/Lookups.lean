import QueryPlanner.Binding
import QueryPlanner.Proofs.Except
import QueryPlanner.Proofs.Typing.Rules

/-!
# Why names are refused

Once the sources of a query are bound, the rest of it is refused for a name that means nothing or
too much, for a type that does not fit, or for what it says as a whole.  What is kept by such
refusals and by sequences of steps is kept by all of this (`Lookups.bindIn`, `Lookups.source`).

Recursive views are not among these reasons: only the expansion of a view finds them.
-/

namespace QueryPlanner

/-- What is kept by the steps of looking names up, and by sequences of steps. -/
structure Lookups (J : (α : Type) → Except PlanError α → Prop) : Prop where
  ok : ∀ {α : Type} (a : α), J α (.ok a)
  bind : ∀ {α β : Type} {x : Except PlanError α} {f : α → Except PlanError β},
    J α x → (∀ a, J β (f a)) → J β (x >>= f)
  refuse : ∀ {α : Type} (e : PlanError), e.code.category = .resolution → e.code ≠ .recursiveView →
    J α (.error e)

/-- Typing refuses expressions for their types, or for rows in the wrong place. -/
theorem Typing.rules_code : Typing.Rules (fun _ => True) fun _ t => ∀ slots e,
    t.runOn slots = .error e → e.code = .typeMismatch ∨ e.code = .invalidStatement where
  pure _ := nofun
  bind {α β t f} ht hf slots e h := by
    rw [Typing.runOn_bind] at h
    cases hrun : t.runOn slots with
    | error e' =>
        rw [hrun] at h
        cases h
        exact ht slots _ hrun
    | ok a =>
        rw [hrun] at h
        exact hf a.1 a.2 e h
  get := nofun
  fill _ _ _ := nofun
  refuse e he slots e' h := by
    cases h
    exact he

namespace Select

/-- Binds a query whose sources have been bound. -/
def bindIn (scope : Scope) (query : Select) : Except PlanError BoundSelect := do
  let results ← query.items.mapM scope.bindItem
  let predicate ← query.predicate.mapM scope.bindExpr
  let order ← query.order.mapM scope.bindOrderItem
  return {
    sources := scope
    results := results.flatten
    predicate
    order
    offset := query.offset
    limit := query.limit }

theorem bindWith_eq (bindSource : TableRef → Except PlanError BoundSource) (query : Select) :
    query.bindWith bindSource =
      bindSources bindSource [] query.sources >>= fun scope => query.bindIn scope := rfl

end Select

theorem View.resultTypes_eq (results : List ResultItem) :
    resultTypes results =
      ((results.mapM fun (item : ResultItem) => item.expr.resolve).runOn []).map Prod.fst := by
  unfold resultTypes Typing.runOn
  cases (results.mapM fun (item : ResultItem) => item.expr.resolve).run [] <;> rfl

namespace Lookups

variable {J : (α : Type) → Except PlanError α → Prop} (hJ : Lookups J)

include hJ

theorem mapM {α β : Type} {f : α → Except PlanError β} (h : ∀ a, J β (f a)) (l : List α) :
    J (List β) (l.mapM f) := by
  induction l with
  | nil => exact hJ.ok []
  | cons a l ih =>
      rw [List.mapM_cons]
      exact hJ.bind (h a) fun _ => hJ.bind ih fun _ => hJ.ok _

theorem option_mapM {α β : Type} {f : α → Except PlanError β} (h : ∀ a, J β (f a))
    (o : Option α) : J (Option β) (o.mapM f) := by
  cases o with
  | none => exact hJ.ok none
  | some a => exact hJ.bind (h a) fun _ => hJ.ok _

theorem resolve (scope : Scope) (qualifier : Option String) (name : String) :
    J _ (scope.resolve qualifier name) := by
  unfold Scope.resolve
  split
  next =>
    split
    next => exact hJ.refuse _ rfl nofun
    next =>
      split
      next => exact hJ.refuse _ rfl nofun
      next => exact hJ.ok _
  next =>
    split
    next => exact hJ.refuse _ rfl nofun
    next => exact hJ.ok _
    next => exact hJ.refuse _ rfl nofun

mutual

theorem bindExpr (scope : Scope) : ∀ e, J _ (scope.bindExpr e)
  | .column table name => hJ.bind (hJ.resolve scope table name) fun _ => hJ.ok _
  | .literal _ => hJ.ok _
  | .parameter _ => hJ.ok _
  | .binary _ left right =>
      hJ.bind (bindExpr scope left) fun _ => hJ.bind (bindExpr scope right) fun _ => hJ.ok _
  | .not operand => hJ.bind (bindExpr scope operand) fun _ => hJ.ok _
  | .isNull operand _ => hJ.bind (bindExpr scope operand) fun _ => hJ.ok _
  | .between operand low high _ =>
      hJ.bind (bindExpr scope operand) fun _ => hJ.bind (bindExpr scope low) fun _ =>
        hJ.bind (bindExpr scope high) fun _ => hJ.ok _
  | .row items => hJ.bind (bindExprs scope items) fun _ => hJ.ok _

theorem bindExprs (scope : Scope) : ∀ items, J _ (scope.bindExprs items)
  | [] => hJ.ok _
  | item :: rest =>
      hJ.bind (bindExpr scope item) fun _ => hJ.bind (bindExprs scope rest) fun _ => hJ.ok _

end

theorem bindItem (scope : Scope) (item : SelectItem) : J _ (scope.bindItem item) := by
  cases item with
  | wildcard =>
      unfold Scope.bindItem
      dsimp only
      split
      · exact hJ.refuse _ rfl nofun
      · exact hJ.ok _
  | qualifiedWildcard table =>
      unfold Scope.bindItem
      dsimp only
      split
      next => exact hJ.refuse _ rfl nofun
      next => exact hJ.ok _
  | expr e aliasName defaultName => exact hJ.bind (hJ.bindExpr scope e) fun _ => hJ.ok _

/-- A query whose sources are bound. -/
theorem bindIn (scope : Scope) (q : Select) : J _ (q.bindIn scope) := by
  refine hJ.bind (hJ.mapM (hJ.bindItem scope) _) fun _ => ?_
  refine hJ.bind (hJ.option_mapM (hJ.bindExpr scope) _) fun _ => ?_
  refine hJ.bind (hJ.mapM (fun item => ?_) _) fun _ => hJ.ok _
  exact hJ.bind (hJ.bindExpr scope item.expr) fun _ => hJ.ok _

theorem resultTypes (results : List ResultItem) : J _ (View.resultTypes results) := by
  have hcode := Typing.rules_code.mapM (l := results) fun item _ =>
    Typing.rules_code.resolve (e := item.expr) fun _ _ => trivial
  rw [View.resultTypes_eq]
  cases hrun : (results.mapM fun (item : ResultItem) => item.expr.resolve).runOn [] with
  | ok types => exact hJ.ok _
  | error e =>
      rcases hcode [] e hrun with h | h
      · exact hJ.refuse e (by rw [h]; rfl) (by rw [h]; nofun)
      · exact hJ.refuse e (by rw [h]; rfl) (by rw [h]; nofun)

/-- A view whose query is bound. -/
theorem source (w : View) (aliasName : Option String) (q : BoundSelect) :
    J _ (w.source aliasName q) := by
  unfold View.source
  dsimp only
  split
  · exact hJ.refuse _ rfl nofun
  · exact hJ.bind (hJ.resultTypes q.results) fun _ => hJ.ok _

theorem bindTable (s : Session) (name : ObjectName) : J _ (s.bindTable name) := by
  unfold Session.bindTable
  dsimp only
  split
  · split
    next => exact hJ.ok _
    next => exact hJ.refuse _ rfl nofun
  · exact hJ.refuse _ rfl nofun

end Lookups

end QueryPlanner
