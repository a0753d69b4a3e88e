import Mathlib.Algebra.GroupWithZero.Nat
import QueryPlanner.Proofs.Evaluation

/-!
# Splitting predicates

The conjuncts of a predicate are the leaves of the tree of `AND`s at its top.  A loop finds them
with a stack of expressions: an `AND` on the stack gives way to its operands, the left one above the
right one, and any other expression is the next conjunct.  What has been found, followed by the
conjuncts of what is on the stack, stays the same in every round, and every round takes one node off
the trees on the stack.

Main statement: `Splitting.run_start`.
-/

namespace QueryPlanner

namespace BoundExpr

/-- The leaves, from left to right, of the tree of `AND`s at the top of an expression. -/
inductive SplitsInto : BoundExpr → List BoundExpr → Prop where
  | leaf {e : BoundExpr} (h : e.isConjunction = false) : SplitsInto e [e]
  | and {left right : BoundExpr} {lefts rights : List BoundExpr} (hleft : SplitsInto left lefts)
      (hright : SplitsInto right rights) : SplitsInto (.binary .and left right) (lefts ++ rights)

/-- The number of nodes of that tree, its leaves among them. -/
def treeSize : BoundExpr → Nat
  | .binary .and left right => left.treeSize + right.treeSize + 1
  | _ => 1

theorem splitsInto_conjuncts (e : BoundExpr) : e.SplitsInto e.conjuncts := by
  fun_induction conjuncts e with
  | case1 left right ihLeft ihRight => exact .and ihLeft ihRight
  | case2 e hne => exact .leaf (isConjunction_eq_false hne)

theorem splitsInto_iff {e : BoundExpr} {l : List BoundExpr} : e.SplitsInto l ↔ e.conjuncts = l := by
  constructor
  · intro h
    induction h with
    | leaf h => exact conjuncts_of_isConjunction_eq_false h
    | and hleft hright ihLeft ihRight => rw [conjuncts_and, ihLeft, ihRight]
  · rintro rfl
    exact e.splitsInto_conjuncts

theorem treeSize_of_isConjunction_eq_false {e : BoundExpr} (h : e.isConjunction = false) :
    e.treeSize = 1 := by
  unfold treeSize
  split
  next left right => cases h
  next => rfl

end BoundExpr

/-- A predicate is true exactly if all its conjuncts are. -/
theorem Valuation.truth_conjuncts (v : Valuation) (e : BoundExpr) :
    v.truth e = .holds ↔ ∀ c ∈ e.conjuncts, v.truth c = .holds := by
  have hand : ∀ left right, v.truth (.binary .and left right) =
      (v.truth left).and (v.truth right) := by
    intro left right
    simp [truth, scalars, combine, Scalar.truth, Scalar.single, Scalar.ofTruth]
  have hsplits := e.splitsInto_conjuncts
  generalize e.conjuncts = l at hsplits
  induction hsplits with
  | leaf h => simp
  | and hleft hright ihLeft ihRight =>
      rw [hand, Truth.and_eq_holds, List.forall_mem_append]
      exact and_congr ihLeft ihRight

/-! ## The loop -/

/-- A predicate on its way to be split. -/
structure Splitting where
  /-- The expressions still to be looked at, the next one first. -/
  stack : List BoundExpr
  /-- The conjuncts found so far. -/
  found : List BoundExpr := []

namespace Splitting

/-- Where the loop starts. -/
def start (e : BoundExpr) : Splitting := { stack := [e] }

/-- One round of the loop, none when the stack is empty. -/
def step : Splitting → Option Splitting
  | ⟨[], _⟩ => none
  | ⟨.binary .and left right :: rest, found⟩ => some ⟨left :: right :: rest, found⟩
  | ⟨e :: rest, found⟩ => some ⟨rest, found ++ [e]⟩

/-- The number of nodes on the stack. -/
def size (s : Splitting) : Nat := (s.stack.map BoundExpr.treeSize).sum

/-- The conjuncts that are found in the end. -/
def total (s : Splitting) : List BoundExpr := s.found ++ s.stack.flatMap BoundExpr.conjuncts

variable {s s' : Splitting}

/-- All that a round can do. -/
theorem step_cases (h : s.step = some s') :
    (∃ left right rest, s.stack = .binary .and left right :: rest ∧
        s' = ⟨left :: right :: rest, s.found⟩) ∨
      ∃ e rest, e.isConjunction = false ∧ s.stack = e :: rest ∧ s' = ⟨rest, s.found ++ [e]⟩ := by
  unfold step at h
  split at h
  next => cases h
  next left right rest found =>
    cases h
    exact .inl ⟨left, right, rest, rfl, rfl⟩
  next e rest found hne =>
    cases h
    exact .inr ⟨e, rest, BoundExpr.isConjunction_eq_false hne, rfl, rfl⟩

theorem stack_eq_nil_of_step (h : s.step = none) : s.stack = [] := by
  unfold step at h
  split at h
  next => rfl
  next => cases h
  next => cases h

theorem size_of_step (h : s.step = some s') : s'.size + 1 = s.size := by
  obtain ⟨left, right, rest, hstack, rfl⟩ | ⟨e, rest, he, hstack, rfl⟩ := step_cases h
  · simp only [size, hstack, List.map_cons, List.sum_cons, BoundExpr.treeSize]
    omega
  · simp only [size, hstack, List.map_cons, List.sum_cons,
      BoundExpr.treeSize_of_isConjunction_eq_false he]
    omega

theorem total_of_step (h : s.step = some s') : s'.total = s.total := by
  obtain ⟨left, right, rest, hstack, rfl⟩ | ⟨e, rest, he, hstack, rfl⟩ := step_cases h
  · simp [total, hstack]
  · simp [total, hstack, BoundExpr.conjuncts_of_isConjunction_eq_false he]

/-- The conjuncts found when the stack is empty. -/
def run (s : Splitting) : List BoundExpr :=
  match h : s.step with
  | none => s.found
  | some s' =>
      have := size_of_step h
      s'.run
termination_by s.size

theorem run_eq_total (s : Splitting) : s.run = s.total := by
  fun_induction run s with
  | case1 s h => rw [total, stack_eq_nil_of_step h, List.flatMap_nil, List.append_nil]
  | case2 s s' h _ ih => rw [ih, total_of_step h]

theorem run_start_eq (e : BoundExpr) : (start e).run = e.conjuncts := by
  rw [run_eq_total, total, start, List.nil_append, List.flatMap_singleton]

/-- The loop finds the conjuncts of a predicate: the leaves of its tree of `AND`s from left to
right, those of a left operand before those of the right one, none of them an `AND`.  In
three-valued logic the predicate is true exactly if all of them are. -/
theorem run_start (e : BoundExpr) :
    (start e).run = e.conjuncts ∧
      (∀ l, (start e).run = l ↔ e.SplitsInto l) ∧
      (∀ left right, (start (.binary .and left right)).run =
        (start left).run ++ (start right).run) ∧
      (∀ c ∈ (start e).run, c.isConjunction = false) ∧
      ∀ v : Valuation, v.truth e = .holds ↔ ∀ c ∈ (start e).run, v.truth c = .holds := by
  simp only [run_start_eq]
  exact ⟨trivial, fun l => BoundExpr.splitsInto_iff.symm, BoundExpr.conjuncts_and,
    fun c => BoundExpr.isConjunction_of_mem_conjuncts, fun v => v.truth_conjuncts e⟩

/-- `(TRUE AND $1) AND $2` splits into three conjuncts; `$1`, found in the middle, is no `AND`. -/
theorem run_start_nested :
    (start (.binary .and (.binary .and (.literal (.boolean true)) (.parameter 0))
        (.parameter 1))).run = [.literal (.boolean true), .parameter 0, .parameter 1] ∧
      (BoundExpr.parameter 0).isConjunction = false := by
  have hrun := (run_start (.binary .and (.binary .and (.literal (.boolean true)) (.parameter 0))
    (.parameter 1))).1
  have hfound : (start (.binary .and (.binary .and (.literal (.boolean true)) (.parameter 0))
      (.parameter 1))).run = [.literal (.boolean true), .parameter 0, .parameter 1] := by
    rw [hrun]
    simp [BoundExpr.conjuncts]
  exact ⟨hfound, (run_start _).2.2.2.1 _ (by rw [hfound]; simp)⟩

end Splitting

end QueryPlanner
