import QueryPlanner.Proofs.Typing.Slots

/-!
# Placeholders found without a type

Typing reads the slot of a placeholder where it comes to it, and gives it a type later, if at all.
In between it can come to the same placeholder again.  Which of these looks find the slot empty
depends on the slots that typing starts from, and on what it fills on the way.

Main definition: `openLooks`.
-/

namespace QueryPlanner

namespace BoundExpr

mutual

/-- The placeholders that typing an expression finds without a type, in the order in which it comes
to them, each as often as it does. -/
def openLooks (e : BoundExpr) (slots : Slots) : List UInt64 :=
  match e with
  | .column _ | .literal _ | .row _ => []
  | .parameter index => if slots.type? index = none then [index] else []
  | .binary op left right =>
      match op.group with
      | .comparison => openLooksOfComparison (.binary op left right) left right slots
      | .logical =>
          left.openLooks slots ++ right.openLooks (left.resolvePredicate.slotsAfter slots)
      | .arithmetic => left.openLooks slots ++ right.openLooks (left.resolve.slotsAfter slots)
  | .not operand | .isNull operand _ => operand.openLooks slots
  | .between operand low high negated =>
      -- the operand is looked at again beside the second bound
      openLooksOfComparison (.between operand low high negated) operand low slots ++
        openLooksOfComparison (.between operand low high negated) operand high
          ((resolveComparison (.between operand low high negated) operand low).slotsAfter slots)
termination_by sizeOf e
decreasing_by
  · exact sizeOf_operands_lt op left right
  · exact sizeOf_left_lt op left right
  · exact sizeOf_right_lt op left right
  · exact sizeOf_left_lt op left right
  · exact sizeOf_right_lt op left right
  · exact sizeOf_lt_not operand
  · exact sizeOf_lt_isNull operand _
  · exact sizeOf_low_lt operand low high negated
  · exact sizeOf_high_lt operand low high negated

/-- Those that a comparison finds so, item by item in rows. -/
def openLooksOfComparison (whole left right : BoundExpr) (slots : Slots) : List UInt64 :=
  match left, right with
  | .row lefts, .row rights => openLooksOfComparisons whole lefts rights slots
  | left, right => left.openLooks slots ++ right.openLooks (left.resolve.slotsAfter slots)
termination_by sizeOf left + sizeOf right
decreasing_by
  · exact sizeOf_items_lt lefts rights
  · exact sizeOf_lt_add_right left right
  · exact sizeOf_lt_add_left left right

def openLooksOfComparisons (whole : BoundExpr) (lefts rights : List BoundExpr) (slots : Slots) :
    List UInt64 :=
  match lefts, rights with
  | left :: lefts, right :: rights =>
      openLooksOfComparison whole left right slots ++
        openLooksOfComparisons whole lefts rights
          ((whole.resolveComparison left right).slotsAfter slots)
  | _, _ => []
termination_by sizeOf lefts + sizeOf rights
decreasing_by
  · exact sizeOf_head_lt left right lefts rights
  · exact sizeOf_tail_lt left right lefts rights

end

/-! ## Equations -/

theorem openLooks_parameter {index : UInt64} {slots : Slots} (h : slots.type? index = none) :
    (parameter index).openLooks slots = [index] := by
  rw [openLooks, if_pos h]

theorem openLooks_comparison {op : BinaryOp} (h : op.group = .comparison)
    (left right : BoundExpr) :
    (binary op left right).openLooks = openLooksOfComparison (binary op left right) left right := by
  funext slots
  rw [openLooks, h]

theorem openLooks_logical {op : BinaryOp} (h : op.group = .logical) (left right : BoundExpr) :
    (binary op left right).openLooks = fun slots =>
      left.openLooks slots ++ right.openLooks (left.resolvePredicate.slotsAfter slots) := by
  funext slots
  rw [openLooks, h]

theorem openLooks_arithmetic {op : BinaryOp} (h : op.group = .arithmetic)
    (left right : BoundExpr) :
    (binary op left right).openLooks = fun slots =>
      left.openLooks slots ++ right.openLooks (left.resolve.slotsAfter slots) := by
  funext slots
  rw [openLooks, h]

theorem openLooks_not (operand : BoundExpr) : (not operand).openLooks = operand.openLooks := by
  funext slots
  rw [openLooks]

theorem openLooks_isNull (operand : BoundExpr) (negated : Bool) :
    (isNull operand negated).openLooks = operand.openLooks := by
  funext slots
  rw [openLooks]

theorem openLooks_between (operand low high : BoundExpr) (negated : Bool) :
    (between operand low high negated).openLooks = fun slots =>
      openLooksOfComparison (between operand low high negated) operand low slots ++
        openLooksOfComparison (between operand low high negated) operand high
          ((resolveComparison (between operand low high negated) operand low).slotsAfter slots) := by
  funext slots
  rw [openLooks]

theorem openLooksOfComparison_rows (whole : BoundExpr) (lefts rights : List BoundExpr) :
    openLooksOfComparison whole (row lefts) (row rights) =
      openLooksOfComparisons whole lefts rights := by
  funext slots
  rw [openLooksOfComparison]

theorem openLooksOfComparison_scalars {left right : BoundExpr}
    (h : (left.isRow || right.isRow) = false) (whole : BoundExpr) :
    openLooksOfComparison whole left right = fun slots =>
      left.openLooks slots ++ right.openLooks (left.resolve.slotsAfter slots) := by
  funext slots
  rw [openLooksOfComparison]
  rintro lefts rights rfl rfl
  cases h

theorem openLooksOfComparisons_cons (whole left right : BoundExpr)
    (lefts rights : List BoundExpr) :
    openLooksOfComparisons whole (left :: lefts) (right :: rights) = fun slots =>
      openLooksOfComparison whole left right slots ++
        openLooksOfComparisons whole lefts rights
          ((whole.resolveComparison left right).slotsAfter slots) := by
  funext slots
  rw [openLooksOfComparisons]

end BoundExpr

end QueryPlanner
