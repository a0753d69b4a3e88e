import QueryPlanner.AccessPath.Choice
import QueryPlanner.Proofs.Evaluation

/-!
# What search arguments and key ranges admit

Both restrict the columns of one source to constants: a search argument by one restriction, a key
range by one for each of its ends.  Here is what they say about the row that a valuation gives for
that source.  A range that is not lexicographic asks for an exact match on every bound field but
the last and restricts the last; a lexicographic range restricts the key as a whole.

Main statement: where all fields but the last agree with their constants, restricting the last is
the same as restricting the key (`meetsLast_iff`).
-/

namespace QueryPlanner

namespace BoundExpr

/-- The comparisons of a conjunct.  A test for a range counts as two. -/
def comparisons : BoundExpr → List BoundExpr
  | .binary op left right => if op.group = .comparison then [.binary op left right] else []
  | .between operand low high false => [.binary .gtEq operand low, .binary .ltEq operand high]
  | _ => []

/-- Every comparison of a conjunct holds where the conjunct does. -/
theorem truth_of_mem_comparisons {v : Valuation} {c e : BoundExpr} (he : e ∈ c.comparisons)
    (hc : v.truth c = .holds) : v.truth e = .holds := by
  unfold comparisons at he
  split at he
  next op left right =>
    split at he
    · rw [List.mem_singleton.1 he]
      exact hc
    · simp at he
  next operand low high =>
    rw [Valuation.truth_between, Truth.and_eq_holds] at hc
    rw [List.mem_cons, List.mem_singleton] at he
    rcases he with rfl | rfl
    · exact hc.1
    · exact hc.2
  next => simp at he

end BoundExpr

/-! ## Restrictions -/

/-- Whether a restriction allows what compares in the given way with its constant. -/
def Restriction.admits : Restriction → Ordering → Bool
  | .exactly, o => o == .eq
  | .atLeast inclusive, o => o == .gt || (inclusive && o == .eq)
  | .atMost inclusive, o => o == .lt || (inclusive && o == .eq)

namespace Valuation

variable (v : Valuation) (source : Nat)

/-- The value of a constant. -/
def bound : BoundValue → Value
  | .literal value => value
  | .parameter index => v.argument index

/-- How a column compares with a constant. -/
def compareField (field : Nat × BoundValue) : Ordering :=
  (v.order source field.1).compare (v.cell source field.1) (v.bound field.2)

/-- How columns compare with constants as one value. -/
def compareKey : List (Nat × BoundValue) → Ordering
  | [] => .eq
  | field :: rest => (v.compareField source field).then (compareKey rest)

/-- Whether columns agree with constants on every field but the last and a restriction admits the
last. -/
def meetsLast (restriction : Restriction) (fields : List (Nat × BoundValue)) : Prop :=
  (∀ field ∈ fields.dropLast, v.compareField source field = .eq) ∧
    ∀ field ∈ fields.getLast?, restriction.admits (v.compareField source field) = true

end Valuation

/-! ## Search arguments -/

namespace SearchArgument

/-- The columns of an argument with the constants they are compared with. -/
def fields : SearchArgument → List (Nat × BoundValue)
  | .column position _ value => [(position, value)]
  | .row positions _ values => positions.zip values

def restriction : SearchArgument → Restriction
  | .column _ restriction _ => restriction
  | .row _ restriction _ => restriction

/-- Whether the row of a valuation is as an argument says. -/
def Holds (a : SearchArgument) (v : Valuation) (source : Nat) : Prop :=
  a.restriction.admits (v.compareKey source a.fields) = true

/-- Whether an argument has a constant for each of its columns. -/
def IsEven : SearchArgument → Prop
  | .column .. => True
  | .row positions _ values => positions.length = values.length

end SearchArgument

/-! ## Key ranges -/

namespace KeyRange

/-- The fields that an end of a range binds, by the positions of their columns. -/
def fields (r : KeyRange) (e : RangeEnd) : List (Nat × BoundValue) :=
  (r.index.fields.map (·.columnPosition)).zip e.bound.values

/-- The columns that a range binds. -/
def boundPositions (r : KeyRange) : List Nat :=
  (r.index.fields.take r.boundColumns).map (·.columnPosition)

@[simp] theorem boundPositions_settle (r : KeyRange) :
    r.settle.boundPositions = r.boundPositions := by
  rw [boundPositions, boundPositions, index_settle, boundColumns_settle]

/-- Whether an end of a range, which restricts keys in the given way, lets the row of a valuation
pass. -/
def EndAdmits (r : KeyRange) (v : Valuation) (source : Nat) (restriction : Restriction)
    (e : RangeEnd) : Prop :=
  if r.lexicographic then restriction.admits (v.compareKey source (r.fields e)) = true
  else v.meetsLast source restriction (r.fields e)

/-- Whether the key of the row of a valuation lies in a range. -/
def Admits (r : KeyRange) (v : Valuation) (source : Nat) : Prop :=
  (∀ e ∈ r.lo, r.EndAdmits v source (.atLeast e.inclusive) e) ∧
    ∀ e ∈ r.hi, r.EndAdmits v source (.atMost e.inclusive) e

end KeyRange

namespace Valuation

variable {v : Valuation} {source : Nat}

/-! ## Composite comparisons -/

@[simp] theorem compareKey_nil : v.compareKey source [] = .eq := rfl

@[simp] theorem compareKey_cons (field : Nat × BoundValue) (rest : List (Nat × BoundValue)) :
    v.compareKey source (field :: rest) =
      (v.compareField source field).then (v.compareKey source rest) := rfl

theorem compareKey_append (fields rest : List (Nat × BoundValue)) :
    v.compareKey source (fields ++ rest) =
      (v.compareKey source fields).then (v.compareKey source rest) := by
  induction fields with
  | nil => rfl
  | cons field fields ih => rw [List.cons_append, compareKey_cons, ih, compareKey_cons,
      Ordering.then_assoc]

theorem compareKey_eq_eq_iff {fields : List (Nat × BoundValue)} :
    v.compareKey source fields = .eq ↔ ∀ field ∈ fields, v.compareField source field = .eq := by
  induction fields with
  | nil => simp
  | cons field fields ih => simp [ih]

/-- A restriction of the last of several fields, all of which but the last agree, restricts them as
one value. -/
theorem compareKey_of_dropLast {fields : List (Nat × BoundValue)} {last : Nat × BoundValue}
    (hlast : fields.getLast? = some last)
    (h : ∀ field ∈ fields.dropLast, v.compareField source field = .eq) :
    v.compareKey source fields = v.compareField source last := by
  obtain ⟨init, rfl⟩ := List.getLast?_eq_some_iff.1 hlast
  rw [List.dropLast_concat] at h
  rw [compareKey_append, compareKey_eq_eq_iff.2 h]
  cases hl : v.compareField source last <;> simp [hl]

/-- Where all fields but the last agree, restricting the last is restricting the key. -/
theorem meetsLast_iff {restriction : Restriction} {fields : List (Nat × BoundValue)}
    (hne : fields ≠ []) :
    v.meetsLast source restriction fields ↔
      (∀ field ∈ fields.dropLast, v.compareField source field = .eq) ∧
        restriction.admits (v.compareKey source fields) = true := by
  obtain ⟨last, hlast⟩ := Option.isSome_iff_exists.1 (List.getLast?_isSome.2 hne)
  unfold meetsLast
  refine and_congr_right fun h => ?_
  rw [compareKey_of_dropLast hlast h, hlast]
  simp

end Valuation

end QueryPlanner
