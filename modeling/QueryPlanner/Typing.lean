import QueryPlanner.Bound.Expr
import QueryPlanner.Plan.Error

/-!
# Types of expressions

Every bound expression gets a type, and placeholders get theirs from where they stand.  A
placeholder has a slot.  A slot with a type keeps it; an empty slot takes the type of the column or
expression that its placeholder is first compared with, assigned to or computed with.  A
placeholder that nothing gives a type to stays without one.

What has been found out about the slots stays found out when an expression is refused later on.
-/

namespace QueryPlanner

/-- The types of the placeholders known so far. -/
abbrev Slots := List (Option DataType)

namespace Slots

/-- The slots of a statement with `count` placeholders, of which the caller knows some types.
Types beyond the last placeholder are disregarded. -/
def ofHints (count : Nat) (hints : List (Option DataType)) : Slots :=
  hints.take count ++ List.replicate (count - hints.length) none

/-- The type of a placeholder, if it has a slot with a type. -/
def type? (slots : Slots) (index : UInt64) : Option DataType := slots[index.toNat]?.join

/-- Gives a type to a slot that has none. -/
def fill (slots : Slots) (index : UInt64) (type : DataType) : Slots :=
  slots.modify index.toNat (·.or (some type))

@[simp] theorem length_ofHints (count : Nat) (hints : List (Option DataType)) :
    (ofHints count hints).length = count := by
  simp [ofHints]
  omega

@[simp] theorem length_fill (slots : Slots) (index : UInt64) (type : DataType) :
    (slots.fill index type).length = slots.length := by
  simp [fill]

end Slots

/-- A computation that reads and fills slots, and may fail; what it filled stays when it fails. -/
abbrev Typing := EStateM PlanError Slots

namespace BoundExpr

/-- Gives a type to an expression without type; only a placeholder can take it. -/
def infer (e : BoundExpr) (type : Option DataType) : Typing Unit :=
  match e, type with
  | .parameter index, some type => modify (·.fill index type)
  | _, _ => pure ()

/-- Two operands of an operator give each other the types they lack. -/
def inferBoth (left right : BoundExpr) (leftType rightType : Option DataType) : Typing Unit := do
  if leftType.isNone then left.infer rightType
  if rightType.isNone then right.infer leftType

/-- Requires an expression of the given type to be boolean. -/
def requireBoolean (e : BoundExpr) (type : Option DataType) : Typing Unit :=
  match type with
  | none => e.infer (some .boolean)
  | some .boolean => pure ()
  | some other => throw (.typeMismatch e.sql (.notBoolean other))

/-- Requires two operands of the given types to be comparable. -/
def requireComparable (whole : BoundExpr) (leftType rightType : Option DataType) : Typing Unit :=
  match leftType, rightType with
  | some a, some b =>
      if a.comparable b then pure () else throw (.typeMismatch whole.sql (.notComparable a b))
  | _, _ => pure ()

/-- The type of an arithmetic operation on operands of the given types. -/
def arithmeticType (whole : BoundExpr) (leftType rightType : Option DataType) :
    Typing (Option DataType) :=
  match leftType.toList ++ rightType.toList |>.find? (!·.isNumeric) with
  | some type => throw (.typeMismatch whole.sql (.notNumeric type))
  | none =>
      match leftType, rightType with
      | some a, some b => pure (a.promote? b)
      | a, b => pure (a.or b)

/-! What the recursion through an expression counts down. -/

theorem sizeOf_pos (e : BoundExpr) : 0 < sizeOf e := by
  cases e <;> simp only [column.sizeOf_spec, literal.sizeOf_spec, parameter.sizeOf_spec,
    binary.sizeOf_spec, not.sizeOf_spec, isNull.sizeOf_spec, between.sizeOf_spec,
    row.sizeOf_spec] <;> omega

theorem sizeOf_lt_add_right (left right : BoundExpr) :
    sizeOf left < sizeOf left + sizeOf right := by
  have := sizeOf_pos right
  omega

theorem sizeOf_lt_add_left (left right : BoundExpr) :
    sizeOf right < sizeOf left + sizeOf right := by
  have := sizeOf_pos left
  omega

theorem sizeOf_operands_lt (op : BinaryOp) (left right : BoundExpr) :
    sizeOf left + sizeOf right < sizeOf (binary op left right) := by
  rw [binary.sizeOf_spec]
  omega

theorem sizeOf_left_lt (op : BinaryOp) (left right : BoundExpr) :
    sizeOf left < sizeOf (binary op left right) :=
  Nat.lt_trans (sizeOf_lt_add_right left right) (sizeOf_operands_lt op left right)

theorem sizeOf_right_lt (op : BinaryOp) (left right : BoundExpr) :
    sizeOf right < sizeOf (binary op left right) :=
  Nat.lt_trans (sizeOf_lt_add_left left right) (sizeOf_operands_lt op left right)

theorem sizeOf_lt_not (operand : BoundExpr) : sizeOf operand < sizeOf operand.not := by
  rw [not.sizeOf_spec]
  omega

theorem sizeOf_lt_isNull (operand : BoundExpr) (negated : Bool) :
    sizeOf operand < sizeOf (operand.isNull negated) := by
  rw [isNull.sizeOf_spec]
  omega

theorem sizeOf_low_lt (operand low high : BoundExpr) (negated : Bool) :
    sizeOf operand + sizeOf low < sizeOf (between operand low high negated) := by
  rw [between.sizeOf_spec]
  omega

theorem sizeOf_high_lt (operand low high : BoundExpr) (negated : Bool) :
    sizeOf operand + sizeOf high < sizeOf (between operand low high negated) := by
  rw [between.sizeOf_spec]
  omega

theorem sizeOf_items_lt (lefts rights : List BoundExpr) :
    sizeOf lefts + sizeOf rights < sizeOf (row lefts) + sizeOf (row rights) := by
  rw [row.sizeOf_spec, row.sizeOf_spec]
  omega

theorem sizeOf_head_lt (left right : BoundExpr) (lefts rights : List BoundExpr) :
    sizeOf left + sizeOf right < sizeOf (left :: lefts) + sizeOf (right :: rights) := by
  rw [List.cons.sizeOf_spec, List.cons.sizeOf_spec]
  omega

theorem sizeOf_tail_lt (left right : BoundExpr) (lefts rights : List BoundExpr) :
    sizeOf lefts + sizeOf rights < sizeOf (left :: lefts) + sizeOf (right :: rights) := by
  rw [List.cons.sizeOf_spec, List.cons.sizeOf_spec]
  omega

mutual

/-- The type of an expression, `none` when nothing determines it. -/
def resolve (e : BoundExpr) : Typing (Option DataType) :=
  match e with
  | .column c => pure c.type
  | .literal value => pure value.dataType?
  | .parameter index => return (← get).type? index
  | .binary op left right =>
      match op.group with
      | .comparison => do
          resolveComparison (.binary op left right) left right
          return some .boolean
      | .logical => do
          left.requireBoolean (← resolve left)
          right.requireBoolean (← resolve right)
          return some .boolean
      | .arithmetic => do
          let leftType ← resolve left
          let rightType ← resolve right
          inferBoth left right leftType rightType
          arithmeticType (.binary op left right) leftType rightType
  | .not operand => do
      operand.requireBoolean (← resolve operand)
      return some .boolean
  | .isNull operand _ => do
      if !operand.isRow then discard (resolve operand)
      return some .boolean
  | .between operand low high negated => do
      resolveComparison (.between operand low high negated) operand low
      resolveComparison (.between operand low high negated) operand high
      return some .boolean
  | .row items => throw (.invalidStatement (.strayRow (sql (.row items))))
termination_by sizeOf e
decreasing_by
  · exact sizeOf_operands_lt op left right
  · exact sizeOf_left_lt op left right
  · exact sizeOf_right_lt op left right
  · exact sizeOf_left_lt op left right
  · exact sizeOf_right_lt op left right
  · exact sizeOf_lt_not operand
  · exact sizeOf_lt_isNull operand _
  · exact sizeOf_low_lt operand low high negated
  · exact sizeOf_high_lt operand low high negated

/-- Gives types to the two sides of a comparison, item by item in rows. -/
def resolveComparison (whole left right : BoundExpr) : Typing Unit :=
  match left, right with
  | .row lefts, .row rights =>
      if lefts.length = rights.length then resolveComparisons whole lefts rights
      else throw (.invalidStatement (.rowArity whole.sql))
  | left, right => do
      if left.isRow || right.isRow then throw (.invalidStatement (.rowWithScalar whole.sql))
      let leftType ← resolve left
      let rightType ← resolve right
      inferBoth left right leftType rightType
      requireComparable whole leftType rightType
termination_by sizeOf left + sizeOf right
decreasing_by
  · exact sizeOf_items_lt lefts rights
  · exact sizeOf_lt_add_right left right
  · exact sizeOf_lt_add_left left right

def resolveComparisons (whole : BoundExpr) (lefts rights : List BoundExpr) : Typing Unit :=
  match lefts, rights with
  | left :: lefts, right :: rights => do
      resolveComparison whole left right
      resolveComparisons whole lefts rights
  | _, _ => pure ()
termination_by sizeOf lefts + sizeOf rights
decreasing_by
  · exact sizeOf_head_lt left right lefts rights
  · exact sizeOf_tail_lt left right lefts rights

end

/-- Requires an expression to be a predicate. -/
def resolvePredicate (e : BoundExpr) : Typing Unit := do
  e.requireBoolean (← e.resolve)

/-- Requires an expression to fit a column of the given type. -/
def resolveFor (e : BoundExpr) (target : Option DataType) : Typing Unit := do
  match ← e.resolve, target with
  | none, target => e.infer target
  | some actual, some target =>
      if actual.comparable target then pure ()
      else throw (.typeMismatch e.sql (.notAssignable actual target))
  | some _, none => pure ()

end BoundExpr

end QueryPlanner
