import QueryPlanner.Collation.Basic
import QueryPlanner.Statement.Expr

/-!
# Bound expressions

Expressions in which every column has been found: it is given by its source and its position
there.  Main statement: the conjuncts of a predicate are its operands between the outermost `AND`s,
from left to right, and none of them is itself an `AND` (`isConjunction_of_mem_conjuncts`).
-/

namespace QueryPlanner

/-- A column of a source. -/
structure BoundColumn where
  /-- The number of the source in its scope. -/
  source : Nat
  /-- The name the source goes by. -/
  qualifier : String
  /-- The position among the columns of the source. -/
  position : Nat
  /-- The declared name of the column. -/
  name : String
  type : Option DataType
  collation : Option CollationId
  deriving DecidableEq

/-- An expression whose columns have been found. -/
inductive BoundExpr where
  | column (column : BoundColumn)
  | literal (value : Value)
  /-- A placeholder, counted from zero. -/
  | parameter (index : UInt64)
  | binary (op : BinaryOp) (left right : BoundExpr)
  | not (operand : BoundExpr)
  | isNull (operand : BoundExpr) (negated : Bool)
  | between (operand low high : BoundExpr) (negated : Bool)
  | row (items : List BoundExpr)

namespace BoundExpr

/-- Whether the expression is written in parentheses as an operand. -/
def isCompound : BoundExpr → Bool
  | .binary .. | .between .. | .isNull .. | .not _ => true
  | _ => false

/-- Whether the expression is a row value. -/
def isRow : BoundExpr → Bool
  | .row _ => true
  | _ => false

mutual

/-- The SQL text of an expression, with the source of every column. -/
def sql : BoundExpr → String
  | .column c => c.qualifier ++ "." ++ c.name
  | .literal value => value.sql
  | .parameter index => placeholder index
  | .binary op left right =>
      parenthesized left.isCompound left.sql ++ " " ++ op.symbol ++ " " ++
        parenthesized right.isCompound right.sql
  | .not operand => "NOT " ++ parenthesized operand.isCompound operand.sql
  | .isNull operand negated => parenthesized operand.isCompound operand.sql ++ nullTest negated
  | .between operand low high negated =>
      parenthesized operand.isCompound operand.sql ++ rangeTest negated ++
        parenthesized low.isCompound low.sql ++ " AND " ++
        parenthesized high.isCompound high.sql
  | .row items => "(" ++ String.intercalate ", " (sqlItems items) ++ ")"

def sqlItems : List BoundExpr → List String
  | [] => []
  | item :: rest => item.sql :: sqlItems rest

end

/-! ## Conjuncts -/

/-- The operands between the outermost `AND`s of a predicate, left to right. -/
def conjuncts : BoundExpr → List BoundExpr
  | .binary .and left right => left.conjuncts ++ right.conjuncts
  | e => [e]

/-- Whether the outermost operator is `AND`. -/
def isConjunction : BoundExpr → Bool
  | .binary .and _ _ => true
  | _ => false

@[simp] theorem conjuncts_and (left right : BoundExpr) :
    conjuncts (.binary .and left right) = left.conjuncts ++ right.conjuncts := by
  simp [conjuncts]

theorem conjuncts_of_isConjunction_eq_false {e : BoundExpr} (h : e.isConjunction = false) :
    e.conjuncts = [e] := by
  unfold conjuncts
  split
  · simp [isConjunction] at h
  · rfl

theorem isConjunction_eq_false {e : BoundExpr} (h : ∀ left right, e ≠ .binary .and left right) :
    e.isConjunction = false := by
  unfold isConjunction
  split
  · exact absurd rfl (h _ _)
  · rfl

theorem isConjunction_of_mem_conjuncts {e c : BoundExpr} (h : c ∈ e.conjuncts) :
    c.isConjunction = false := by
  fun_induction conjuncts e with
  | case1 left right ihLeft ihRight =>
      rcases List.mem_append.1 h with h | h
      · exact ihLeft h
      · exact ihRight h
  | case2 e hne =>
      obtain rfl := List.mem_singleton.1 h
      exact isConjunction_eq_false hne

end BoundExpr

end QueryPlanner
