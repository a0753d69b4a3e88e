import QueryPlanner.Bound.Expr

/-!
# The value and the truth of bound expressions

What a bound expression means for one combination of rows: three-valued logic, in which a
comparison with `NULL` is unknown and rows are compared item by item.  Everything that an
execution brings along is gathered in a `Valuation`: the rows, the values of the placeholders, the
order of every column, and the arithmetic of the engine.

A comparison is made in the order of the column that takes part in it.  Of an order it is known only
that it is a total preorder in which nothing comes before `NULL`.

Main statements: where nothing is `NULL`, a comparison of rows holds exactly where the first items
that differ do so in its direction (`sameRow_of_compareRow`, `besideRow_of_compareRow` and their
converses, which need no such condition).
-/

namespace QueryPlanner

/-! ## Three-valued logic -/

/-- The outcome of a test in three-valued logic. -/
inductive Truth where
  | holds
  | fails
  | unknown
  deriving DecidableEq

namespace Truth

def and : Truth → Truth → Truth
  | .holds, b => b
  | .fails, _ => .fails
  | .unknown, .fails => .fails
  | .unknown, _ => .unknown

def or : Truth → Truth → Truth
  | .holds, _ => .holds
  | .fails, b => b
  | .unknown, .holds => .holds
  | .unknown, _ => .unknown

def not : Truth → Truth
  | .holds => .fails
  | .fails => .holds
  | .unknown => .unknown

/-- Whether an order relation passes a test; a relation that is not there leaves it open. -/
def ofTest (test : Ordering → Bool) : Option Ordering → Truth
  | none => .unknown
  | some o => if test o then .holds else .fails

/-- The outcome as a value. -/
def value : Truth → Value
  | .holds => .boolean true
  | .fails => .boolean false
  | .unknown => .null

/-- The truth of a value; what is not a boolean is unknown. -/
def ofValue : Value → Truth
  | .boolean true => .holds
  | .boolean false => .fails
  | _ => .unknown

@[simp] theorem and_eq_holds {a b : Truth} : a.and b = .holds ↔ a = .holds ∧ b = .holds := by
  cases a <;> cases b <;> simp [Truth.and]

@[simp] theorem or_eq_holds {a b : Truth} : a.or b = .holds ↔ a = .holds ∨ b = .holds := by
  cases a <;> cases b <;> simp [Truth.or]

@[simp] theorem ofTest_eq_holds {test : Ordering → Bool} {relation : Option Ordering} :
    ofTest test relation = .holds ↔ ∃ o, relation = some o ∧ test o = true := by
  cases relation with
  | none => simp [ofTest]
  | some o => cases h : test o <;> simp [ofTest, h]

@[simp] theorem ofValue_value (t : Truth) : ofValue t.value = t := by
  cases t <;> rfl

end Truth

/-! ## What an execution brings along -/

/-- An order of values: a total preorder, given by its comparison, in which `NULL` comes first. -/
structure ValueOrder where
  compare : Value → Value → Ordering
  trans : Std.TransCmp compare
  null_first : ∀ v, (compare .null v).isLE = true

attribute [instance] ValueOrder.trans

/-- What expressions are evaluated for. -/
structure Valuation where
  /-- The value of a column, given by its source and its position there. -/
  cell : Nat → Nat → Value
  /-- The value of a placeholder. -/
  argument : UInt64 → Value
  /-- The order of a column. -/
  order : Nat → Nat → ValueOrder
  /-- The order of values that are not compared with a column. -/
  plainOrder : ValueOrder
  arithmetic : BinaryOp → Value → Value → Value

/-- A scalar that takes part in a comparison. -/
structure Scalar where
  value : Value
  /-- The order of the column that the scalar is read from. -/
  order : Option ValueOrder := none

namespace Scalar

/-- The outcome of a test as a scalar. -/
def ofTruth (t : Truth) : Scalar := { value := t.value }

/-- The value of an operand that is not a row. -/
def single : List Scalar → Value
  | [s] => s.value
  | _ => .null

/-- The truth of an operand. -/
def truth (scalars : List Scalar) : Truth := .ofValue (single scalars)

end Scalar

namespace Valuation

/-! ## Comparisons -/

/-- The order in which two scalars are compared. -/
def common (v : Valuation) (a b : Scalar) : ValueOrder := (a.order.or b.order).getD v.plainOrder

/-- How two scalars relate; nothing relates to `NULL`. -/
def relate (v : Valuation) (a b : Scalar) : Option Ordering :=
  if a.value = .null ∨ b.value = .null then none
  else some ((v.common a b).compare a.value b.value)

/-- Whether two rows agree on every item. -/
def sameRow (v : Valuation) : List Scalar → List Scalar → Truth
  | [], [] => .holds
  | a :: as, b :: bs => (Truth.ofTest (· == .eq) (v.relate a b)).and (v.sameRow as bs)
  | _, _ => .unknown

/-- Whether a row comes on the given side of another one: its first item does, or that is equal and
the rest does.  Equal rows have a truth of their own. -/
def besideRow (v : Valuation) (side : Ordering) (whenEqual : Truth) :
    List Scalar → List Scalar → Truth
  | [], [] => whenEqual
  | a :: as, b :: bs =>
      (Truth.ofTest (· == side) (v.relate a b)).or
        ((Truth.ofTest (· == .eq) (v.relate a b)).and (v.besideRow side whenEqual as bs))
  | _, _ => .unknown

/-- The truth of a comparison of two rows.  A scalar is a row of one item. -/
def comparison (v : Valuation) (op : BinaryOp) (left right : List Scalar) : Truth :=
  match op with
  | .eq => v.sameRow left right
  | .notEq => (v.sameRow left right).not
  | .lt => v.besideRow .lt .fails left right
  | .ltEq => v.besideRow .lt .holds left right
  | .gt => v.besideRow .gt .fails left right
  | .gtEq => v.besideRow .gt .holds left right
  | _ => .unknown

/-! ## Expressions -/

/-- The scalar that an operator makes of two operands. -/
def combine (v : Valuation) (op : BinaryOp) (left right : List Scalar) : Scalar :=
  match op with
  | .and => .ofTruth ((Scalar.truth left).and (Scalar.truth right))
  | .or => .ofTruth ((Scalar.truth left).or (Scalar.truth right))
  | .plus | .minus | .multiply | .divide =>
      { value := v.arithmetic op (Scalar.single left) (Scalar.single right) }
  | _ => .ofTruth (v.comparison op left right)

/-- Whether an operand lies between two others, its ends included. -/
def within (v : Valuation) (operand low high : List Scalar) : Truth :=
  (v.comparison .gtEq operand low).and (v.comparison .ltEq operand high)

/-- Whether all items of an operand are `NULL`, or none of them. -/
def nullness (operand : List Scalar) (negated : Bool) : Truth :=
  if operand.all fun s => s.value.isNull != negated then .holds else .fails

mutual

/-- The scalars of an expression: its items if it is a row, and else its value. -/
def scalars (v : Valuation) : BoundExpr → List Scalar
  | .column c =>
      [{ value := v.cell c.source c.position, order := some (v.order c.source c.position) }]
  | .literal value => [{ value }]
  | .parameter index => [{ value := v.argument index }]
  | .binary op left right => [v.combine op (v.scalars left) (v.scalars right)]
  | .not operand => [.ofTruth (Scalar.truth (v.scalars operand)).not]
  | .isNull operand negated => [.ofTruth (nullness (v.scalars operand) negated)]
  | .between operand low high negated =>
      let inside := v.within (v.scalars operand) (v.scalars low) (v.scalars high)
      [.ofTruth (if negated then inside.not else inside)]
  | .row items => v.scalarsOfItems items

def scalarsOfItems (v : Valuation) : List BoundExpr → List Scalar
  | [] => []
  | item :: rest => v.scalars item ++ v.scalarsOfItems rest

end

/-- The truth of an expression. -/
def truth (v : Valuation) (e : BoundExpr) : Truth := Scalar.truth (v.scalars e)

/-- A comparison is as true as its operands relate. -/
theorem truth_comparison (v : Valuation) {op : BinaryOp} (h : op.group = .comparison)
    (left right : BoundExpr) :
    v.truth (.binary op left right) = v.comparison op (v.scalars left) (v.scalars right) := by
  cases op <;> first
    | exact absurd h (by decide)
    | simp [truth, scalars, combine, Scalar.truth, Scalar.single, Scalar.ofTruth]

/-- A test for a range is the conjunction of two comparisons. -/
theorem truth_between (v : Valuation) (operand low high : BoundExpr) :
    v.truth (.between operand low high false) =
      (v.truth (.binary .gtEq operand low)).and (v.truth (.binary .ltEq operand high)) := by
  rw [truth_comparison v rfl, truth_comparison v rfl]
  simp [truth, scalars, Scalar.truth, Scalar.single, Scalar.ofTruth, within]

/-! ## Rows without `NULL` -/

/-- How two rows compare when `NULL` is a value like others. -/
def compareRow (v : Valuation) : List Scalar → List Scalar → Ordering
  | a :: as, b :: bs => ((v.common a b).compare a.value b.value).then (v.compareRow as bs)
  | _, _ => .eq

section Rows

variable {v : Valuation}

theorem eq_of_relate {a b : Scalar} {o : Ordering} (h : v.relate a b = some o) :
    (v.common a b).compare a.value b.value = o := by
  unfold relate at h
  split at h
  · cases h
  · exact Option.some.inj h

theorem relate_of_ne_null {a b : Scalar} (ha : a.value ≠ .null) (hb : b.value ≠ .null) :
    v.relate a b = some ((v.common a b).compare a.value b.value) := by
  rw [relate, if_neg (not_or.2 ⟨ha, hb⟩)]

theorem compareRow_of_sameRow {as bs : List Scalar} (h : v.sameRow as bs = .holds) :
    v.compareRow as bs = .eq := by
  induction as generalizing bs with
  | nil => rfl
  | cons a as ih =>
      cases bs with
      | nil => rfl
      | cons b bs =>
          rw [sameRow, Truth.and_eq_holds, Truth.ofTest_eq_holds] at h
          obtain ⟨⟨o, ho, hoeq⟩, hrest⟩ := h
          rw [compareRow, eq_of_relate ho, beq_iff_eq.1 hoeq, ih hrest]
          rfl

theorem compareRow_of_besideRow {side : Ordering} (hside : side ≠ .eq) {whenEqual : Truth}
    {as bs : List Scalar} (h : v.besideRow side whenEqual as bs = .holds) :
    v.compareRow as bs = side ∨ (v.compareRow as bs = .eq ∧ whenEqual = .holds) := by
  induction as generalizing bs with
  | nil =>
      cases bs with
      | nil => exact .inr ⟨rfl, h⟩
      | cons b bs => cases h
  | cons a as ih =>
      cases bs with
      | nil => cases h
      | cons b bs =>
          simp only [besideRow, Truth.or_eq_holds, Truth.and_eq_holds, Truth.ofTest_eq_holds] at h
          -- The first items decide, or they are equal and the rest does.
          rcases h with ⟨o, ho, hoside⟩ | ⟨⟨o, ho, hoeq⟩, hrest⟩
          · rw [compareRow, eq_of_relate ho, beq_iff_eq.1 hoside]
            cases side with
            | eq => exact absurd rfl hside
            | lt => exact .inl rfl
            | gt => exact .inl rfl
          · rw [compareRow, eq_of_relate ho, beq_iff_eq.1 hoeq]
            exact ih hrest

theorem sameRow_of_compareRow {as bs : List Scalar} (hlength : as.length = bs.length)
    (ha : ∀ a ∈ as, a.value ≠ .null) (hb : ∀ b ∈ bs, b.value ≠ .null)
    (h : v.compareRow as bs = .eq) : v.sameRow as bs = .holds := by
  induction as generalizing bs with
  | nil => rw [List.length_eq_zero_iff.1 hlength.symm, sameRow]
  | cons a as ih =>
      cases bs with
      | nil => cases hlength
      | cons b bs =>
          rw [List.forall_mem_cons] at ha hb
          rw [compareRow, Ordering.then_eq_eq] at h
          rw [sameRow, relate_of_ne_null ha.1 hb.1, h.1]
          simpa [Truth.ofTest, Truth.and] using ih (Nat.succ.inj hlength) ha.2 hb.2 h.2

theorem besideRow_of_compareRow {side : Ordering} {whenEqual : Truth} {as bs : List Scalar}
    (hlength : as.length = bs.length) (ha : ∀ a ∈ as, a.value ≠ .null)
    (hb : ∀ b ∈ bs, b.value ≠ .null)
    (h : (v.compareRow as bs = side ∧ side ≠ .eq) ∨
      (v.compareRow as bs = .eq ∧ whenEqual = .holds)) :
    v.besideRow side whenEqual as bs = .holds := by
  induction as generalizing bs with
  | nil =>
      rw [List.length_eq_zero_iff.1 hlength.symm]
      rcases h with ⟨rfl, hne⟩ | ⟨-, h⟩
      · exact absurd rfl hne
      · exact h
  | cons a as ih =>
      cases bs with
      | nil => cases hlength
      | cons b bs =>
          rw [List.forall_mem_cons] at ha hb
          have hrest := @ih bs (Nat.succ.inj hlength) ha.2 hb.2
          rw [besideRow, relate_of_ne_null ha.1 hb.1, Truth.or_eq_holds, Truth.and_eq_holds]
          rw [compareRow] at h
          -- The order of the first items tells which of the two ways it is.
          cases ho : (v.common a b).compare a.value b.value with
          | eq =>
              rw [ho] at h
              exact .inr ⟨rfl, hrest h⟩
          | lt =>
              rw [ho] at h
              left
              rcases h with ⟨rfl, -⟩ | ⟨h, -⟩
              · rfl
              · cases h
          | gt =>
              rw [ho] at h
              left
              rcases h with ⟨rfl, -⟩ | ⟨h, -⟩
              · rfl
              · cases h

end Rows

end Valuation

end QueryPlanner
