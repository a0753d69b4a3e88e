import QueryPlanner.Value

/-!
# Expressions

The scalar expressions of a parsed statement, in which columns are still referred to by name, with
their subexpressions, their parameters and their SQL text.
-/

namespace QueryPlanner

/-- The operators with two operands. -/
inductive BinaryOp where
  | eq
  | notEq
  | lt
  | ltEq
  | gt
  | gtEq
  | and
  | or
  | plus
  | minus
  | multiply
  | divide
  deriving DecidableEq

namespace BinaryOp

/-- Every operator. -/
def all : List BinaryOp :=
  [.eq, .notEq, .lt, .ltEq, .gt, .gtEq, .and, .or, .plus, .minus, .multiply, .divide]

/-- The name of an operator in documents. -/
def name : BinaryOp → String
  | .eq => "eq"
  | .notEq => "not_eq"
  | .lt => "lt"
  | .ltEq => "lt_eq"
  | .gt => "gt"
  | .gtEq => "gt_eq"
  | .and => "and"
  | .or => "or"
  | .plus => "plus"
  | .minus => "minus"
  | .multiply => "multiply"
  | .divide => "divide"

def ofName? (s : String) : Option BinaryOp := all.find? (·.name == s)

/-- How an operator is written between its operands. -/
def symbol : BinaryOp → String
  | .eq => "="
  | .notEq => "<>"
  | .lt => "<"
  | .ltEq => "<="
  | .gt => ">"
  | .gtEq => ">="
  | .and => "AND"
  | .or => "OR"
  | .plus => "+"
  | .minus => "-"
  | .multiply => "*"
  | .divide => "/"

/-- The three groups of operators. -/
inductive Group where
  | comparison
  | logical
  | arithmetic
  deriving DecidableEq

/-- The group of an operator. -/
def group : BinaryOp → Group
  | .eq | .notEq | .lt | .ltEq | .gt | .gtEq => .comparison
  | .and | .or => .logical
  | .plus | .minus | .multiply | .divide => .arithmetic

/-- The comparison that holds of the exchanged operands; other operators are kept. -/
def flip : BinaryOp → BinaryOp
  | .lt => .gt
  | .ltEq => .gtEq
  | .gt => .lt
  | .gtEq => .ltEq
  | op => op

@[simp] theorem flip_flip (op : BinaryOp) : op.flip.flip = op := by
  cases op <;> rfl

@[simp] theorem group_flip (op : BinaryOp) : op.flip.group = op.group := by
  cases op <;> rfl

@[simp] theorem ofName?_name (op : BinaryOp) : ofName? op.name = some op := by
  cases op <;> rfl

end BinaryOp

/-- A scalar expression. -/
inductive Expr where
  | column (table : Option String) (name : String)
  | literal (value : Value)
  /-- A placeholder, counted from zero. -/
  | parameter (index : UInt64)
  | binary (op : BinaryOp) (left right : Expr)
  | not (operand : Expr)
  | isNull (operand : Expr) (negated : Bool)
  | between (operand low high : Expr) (negated : Bool)
  /-- Several values compared as one. -/
  | row (items : List Expr)

/-- Text in parentheses where they are called for. -/
def parenthesized (call : Bool) (s : String) : String := if call then "(" ++ s ++ ")" else s

/-- How a placeholder is written: a dollar sign and its number, counted from one in 64 bits. -/
def placeholder (index : UInt64) : String := "$" ++ toString (index + 1).toNat

/-- The words of a test for `NULL`. -/
def nullTest (negated : Bool) : String := if negated then " IS NOT NULL" else " IS NULL"

/-- The words of a test for a range. -/
def rangeTest (negated : Bool) : String := if negated then " NOT BETWEEN " else " BETWEEN "

namespace Expr

/-- Whether the expression is written in parentheses as an operand. -/
def isCompound : Expr → Bool
  | .binary .. | .between .. | .isNull .. | .not _ => true
  | _ => false

mutual

/-- The SQL text of an expression. -/
def sql : Expr → String
  | .column (some table) name => table ++ "." ++ name
  | .column none name => name
  | .literal value => value.sql
  | .parameter index => placeholder index
  | .binary op left right =>
      parenthesized left.isCompound left.sql ++ " " ++ op.symbol ++ " " ++
        parenthesized right.isCompound right.sql
  | .not operand => "NOT " ++ parenthesized operand.isCompound operand.sql
  | .isNull operand negated => parenthesized operand.isCompound operand.sql ++ nullTest negated
  | .between operand low high negated =>
      parenthesized operand.isCompound operand.sql ++ rangeTest negated ++
        parenthesized low.isCompound low.sql ++ " AND " ++
        parenthesized high.isCompound high.sql
  | .row items => "(" ++ String.intercalate ", " (sqlItems items) ++ ")"

def sqlItems : List Expr → List String
  | [] => []
  | item :: rest => item.sql :: sqlItems rest

end

mutual

/-- The expression and everything inside it, the outer before the inner, left to right. -/
def subexprs : Expr → List Expr
  | .column table name => [.column table name]
  | .literal value => [.literal value]
  | .parameter index => [.parameter index]
  | .binary op left right => .binary op left right :: (left.subexprs ++ right.subexprs)
  | .not operand => .not operand :: operand.subexprs
  | .isNull operand negated => .isNull operand negated :: operand.subexprs
  | .between operand low high negated =>
      .between operand low high negated ::
        (operand.subexprs ++ low.subexprs ++ high.subexprs)
  | .row items => .row items :: subexprsItems items

def subexprsItems : List Expr → List Expr
  | [] => []
  | item :: rest => item.subexprs ++ subexprsItems rest

end

mutual

/-- The placeholders of an expression, left to right. -/
def parameters : Expr → List UInt64
  | .column .. | .literal _ => []
  | .parameter index => [index]
  | .binary _ left right => left.parameters ++ right.parameters
  | .not operand => operand.parameters
  | .isNull operand _ => operand.parameters
  | .between operand low high _ => operand.parameters ++ low.parameters ++ high.parameters
  | .row items => parametersItems items

def parametersItems : List Expr → List UInt64
  | [] => []
  | item :: rest => item.parameters ++ parametersItems rest

end

mutual

/-- The placeholders of an expression are those inside it, at any depth. -/
theorem mem_parameters_iff {i : UInt64} :
    ∀ e : Expr, i ∈ e.parameters ↔ .parameter i ∈ e.subexprs
  | .column .. | .literal _ => by simp [parameters, subexprs]
  | .parameter index => by simp [parameters, subexprs]
  | .binary op left right => by
      simp [parameters, subexprs, mem_parameters_iff left, mem_parameters_iff right]
  | .not operand | .isNull operand _ => by simp [parameters, subexprs, mem_parameters_iff operand]
  | .between operand low high _ => by
      simp [parameters, subexprs, mem_parameters_iff operand, mem_parameters_iff low,
        mem_parameters_iff high]
  | .row items => by simp [parameters, subexprs, mem_parametersItems_iff items]

theorem mem_parametersItems_iff {i : UInt64} :
    ∀ items : List Expr, i ∈ parametersItems items ↔ .parameter i ∈ subexprsItems items
  | [] => by simp [parametersItems, subexprsItems]
  | item :: rest => by
      simp [parametersItems, subexprsItems, mem_parameters_iff item, mem_parametersItems_iff rest]

end

end Expr

end QueryPlanner
