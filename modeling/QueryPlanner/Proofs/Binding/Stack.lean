import QueryPlanner.Proofs.Binding.Expansion
import QueryPlanner.Proofs.Binding.Lookups

/-!
# Binding with a stack

The names of the views being expanded may be kept on one stack instead of being handed to every
expansion.  The name of a view is put on it before the query of the view is bound, and taken off
afterwards, whether that has failed or not.  Here expansions are also refused when they nest deeper
than a given bound, which makes their recursion end without a look at the views.

Main statement: with the number of views as the bound, none is refused for its depth, every query is
bound as it is without a stack, and the stack is the same afterwards (`run_bindSelectOn`).
-/

namespace QueryPlanner

/-- Why a binding of bounded depth stops. -/
inductive Stop where
  | refused (error : PlanError)
  | tooDeep

/-- A computation with the lowercase names of the views being expanded on a stack. -/
abbrev Stacked := EStateM Stop (List String)

namespace Stacked

variable {α β : Type}

/-- A computation that has nothing to do with the stack. -/
def ofExcept : Except PlanError α → Stacked α
  | .ok a => pure a
  | .error e => throw (.refused e)

/-- A computation with a name on top of the stack.  The name is taken off also when it fails. -/
def within (key : String) (t : Stacked α) : Stacked α := do
  modify (key :: ·)
  try t finally modify List.tail

/-- The end of a computation that leaves the stack as it was. -/
def outcome (stack : List String) : Except PlanError α → EStateM.Result Stop (List String) α
  | .ok a => .ok a stack
  | .error e => .error (.refused e) stack

variable {stack : List String} {x : Except PlanError α} {t : Stacked α}

theorem eq_of_outcome {y : Except PlanError α} (h : outcome stack x = outcome stack y) : x = y := by
  cases x <;> cases y <;> cases h <;> rfl

theorem run_ofExcept (x : Except PlanError α) : (ofExcept x).run stack = outcome stack x := by
  cases x <;> rfl

theorem run_get_bind (f : List String → Stacked α) : (get >>= f).run stack = (f stack).run stack :=
  rfl

theorem run_within {key : String} (h : t.run (key :: stack) = outcome (key :: stack) x) :
    (within key t).run stack = outcome stack x := by
  have hrun : (within key t).run stack = match t.run (key :: stack) with
      | .ok a stack => .ok a stack.tail
      | .error e stack => .error e stack.tail := by
    show (tryFinally t (modify List.tail)).run (key :: stack) = _
    simp only [tryFinally, tryFinally', EStateM.run, Functor.map, EStateM.map]
    cases t (key :: stack) <;> rfl
  rw [hrun, h]
  cases x <;> rfl

theorem run_bind {f : α → Stacked β} {g : α → Except PlanError β}
    (ht : t.run stack = outcome stack x)
    (hf : ∀ a, (f a).run stack = outcome stack (g a)) :
    (t >>= f).run stack = outcome stack (x >>= g) := by
  have hrun : (t >>= f).run stack = match t.run stack with
      | .ok a stack => (f a).run stack
      | .error e stack => .error e stack := by
    simp only [EStateM.run, bind, EStateM.bind]
    cases t stack <;> rfl
  rw [hrun, ht]
  cases x with
  | error e => rfl
  | ok a => exact hf a

end Stacked

namespace Select

/-- Binds sources one after the other; no two may go by one name. -/
def bindSourcesOn (bindSource : TableRef → Stacked BoundSource) (before : Scope) :
    List TableRef → Stacked Scope
  | [] => return before
  | r :: rest => do
      let source ← bindSource r
      if before.any fun s => Text.sameLetters s.aliasName source.aliasName then
        throw (.refused (.invalidStatement (.repeatedSource source.aliasName)))
      bindSourcesOn bindSource (before ++ [source]) rest

/-- Binds a query, given how its sources are bound. -/
def bindOn (bindSource : TableRef → Stacked BoundSource) (query : Select) :
    Stacked BoundSelect := do
  let scope ← bindSourcesOn bindSource [] query.sources
  .ofExcept (query.bindIn scope)

variable {on : TableRef → Stacked BoundSource}
  {bindSource : TableRef → Except PlanError BoundSource} {stack : List String}

theorem run_bindSourcesOn (h : ∀ r, (on r).run stack = Stacked.outcome stack (bindSource r))
    (before : Scope) (refs : List TableRef) :
    (bindSourcesOn on before refs).run stack =
      Stacked.outcome stack (bindSources bindSource before refs) := by
  induction refs generalizing before with
  | nil => rfl
  | cons r rest ih =>
      refine Stacked.run_bind (h r) fun source => ?_
      dsimp only
      split
      · rfl
      · exact ih _

theorem run_bindOn (h : ∀ r, (on r).run stack = Stacked.outcome stack (bindSource r))
    (query : Select) :
    (query.bindOn on).run stack = Stacked.outcome stack (query.bindWith bindSource) :=
  Stacked.run_bind (run_bindSourcesOn h [] query.sources) fun _ => Stacked.run_ofExcept _

end Select

namespace Session

/-- The source that a reference stands for, where at most `depth` expansions may be nested. -/
def bindSourceOn (s : Session) (depth : Nat) (r : TableRef) : Stacked BoundSource :=
  match s.view? r.name with
  | none => return .ofTable (← .ofExcept (s.bindTable r.name)) r.aliasName
  | some view => do
      if Named.key view ∈ (← get) then throw (.refused (.recursiveView view.name))
      match depth with
      | 0 => throw .tooDeep
      | depth + 1 =>
          let query ← Stacked.within (Named.key view) (view.query.bindOn (s.bindSourceOn depth))
          .ofExcept (view.source r.aliasName query)

/-- Binds a query, where at most `depth` expansions may be nested. -/
def bindSelectOn (s : Session) (depth : Nat) (query : Select) : Stacked BoundSelect :=
  query.bindOn (s.bindSourceOn depth)

variable {s : Session} {stack : List String} {depth : Nat}

theorem run_bindSourceOn_of_table {r : TableRef} (h : s.view? r.name = none) :
    (s.bindSourceOn depth r).run stack = Stacked.outcome stack (s.bindSource stack r) := by
  rw [bindSource_of_table h]
  unfold bindSourceOn
  rw [h]
  exact Stacked.run_bind (Stacked.run_ofExcept _) fun t => rfl

theorem run_bindSourceOn_of_expanding {r : TableRef} {w : View} (h : s.view? r.name = some w)
    (hkey : Named.key w ∈ stack) :
    (s.bindSourceOn depth r).run stack = Stacked.outcome stack (s.bindSource stack r) := by
  rw [bindSource_of_expanding h hkey]
  unfold bindSourceOn
  rw [h]
  dsimp only
  rw [Stacked.run_get_bind, if_pos hkey]
  rfl

theorem run_bindSourceOn_of_view {r : TableRef} {w : View} (h : s.view? r.name = some w)
    (hkey : Named.key w ∉ stack) :
    (s.bindSourceOn (depth + 1) r).run stack =
      (Stacked.within (Named.key w) (w.query.bindOn (s.bindSourceOn depth)) >>= fun query =>
        .ofExcept (w.source r.aliasName query)).run stack := by
  rw [bindSourceOn, h]
  dsimp only
  rw [Stacked.run_get_bind, if_neg hkey]

/-- Binding on the stack is binding with its names at hand, by induction on the bound: every
expansion leaves fewer views to expand. -/
theorem run_bindSourceOn (h : (s.unexpanded stack).length ≤ depth) (r : TableRef) :
    (s.bindSourceOn depth r).run stack = Stacked.outcome stack (s.bindSource stack r) := by
  induction depth generalizing stack r with
  | zero =>
      cases hview : s.view? r.name with
      | none => exact run_bindSourceOn_of_table hview
      | some w =>
          by_cases hkey : Named.key w ∈ stack
          · exact run_bindSourceOn_of_expanding hview hkey
          · have hlt := length_unexpanded_lt (mem_views_of_view? hview) hkey
            omega
  | succ depth ih =>
      cases hview : s.view? r.name with
      | none => exact run_bindSourceOn_of_table hview
      | some w =>
          by_cases hkey : Named.key w ∈ stack
          · exact run_bindSourceOn_of_expanding hview hkey
          · have hlt := length_unexpanded_lt (mem_views_of_view? hview) hkey
            have hinner : (s.unexpanded (Named.key w :: stack)).length ≤ depth := by omega
            have hquery := Select.run_bindOn (ih hinner) w.query
            rw [run_bindSourceOn_of_view hview hkey, bindSource_of_view hview hkey]
            exact Stacked.run_bind (Stacked.run_within hquery) fun _ => Stacked.run_ofExcept _

theorem length_unexpanded_le (s : Session) (stack : List String) :
    (s.unexpanded stack).length ≤ s.views.size := List.length_filter_le _ _

/-- Expansions nest no deeper than there are views, and leave the stack as it was. -/
theorem run_bindSelectOn (s : Session) (stack : List String) (query : Select) :
    (s.bindSelectOn s.views.size query).run stack =
      Stacked.outcome stack (query.bindWith (s.bindSource stack)) :=
  Select.run_bindOn (run_bindSourceOn (s.length_unexpanded_le stack)) query

/-- What a query is bound to may be found with a stack. -/
theorem bindSelect_of_run {query : Select} {x : Except PlanError BoundSelect}
    (h : (s.bindSelectOn s.views.size query).run [] = Stacked.outcome [] x) :
    s.bindSelect query = x :=
  Stacked.eq_of_outcome ((s.run_bindSelectOn [] query).symm.trans h)

end Session

end QueryPlanner
