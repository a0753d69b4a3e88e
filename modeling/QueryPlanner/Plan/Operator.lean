import QueryPlanner.Bound.Query
import QueryPlanner.KeyRange

/-!
# Operators

The tree of operators that an engine runs.  The text of a tree has a line for each operator, before
the lines of its inputs and less indented than they are.
-/

namespace QueryPlanner

/-- A column that an insertion or an update writes. -/
structure TargetColumn where
  position : Nat
  name : String
  deriving DecidableEq

/-- An operator with its inputs. -/
inductive Operator where
  | tableScan (table : TableName)
  | indexScan (range : KeyRange)
  /-- Rows of expressions. -/
  | values (rows : List (List BoundExpr))
  | filter (predicate : BoundExpr) (input : Operator)
  /-- Every combination of rows of the inputs. -/
  | product (inputs : List Operator)
  | project (results : List ResultItem) (input : Operator)
  | sort (order : List BoundOrderItem) (input : Operator)
  | insert (table : TableName) (targets : List TargetColumn) (input : Operator)
  | update (table : TableName) (assignments : List (TargetColumn × BoundExpr)) (input : Operator)
  | delete (table : TableName) (input : Operator)

namespace Operator

/-- The name of an operator in plans. -/
def name : Operator → String
  | .tableScan _ => "TableScan"
  | .indexScan _ => "IndexScan"
  | .values _ => "Values"
  | .filter .. => "Filter"
  | .product _ => "Product"
  | .project .. => "Project"
  | .sort .. => "Sort"
  | .insert .. => "Insert"
  | .update .. => "Update"
  | .delete .. => "Delete"

/-- Whether an operator changes rows of a table. -/
def changesRows : Operator → Bool
  | .insert .. | .update .. | .delete .. => true
  | _ => false

/-- The operators that an operator reads. -/
def inputs : Operator → List Operator
  | .tableScan _ | .indexScan _ | .values _ => []
  | .product inputs => inputs
  | .filter _ input | .project _ input | .sort _ input | .insert _ _ input | .update _ _ input
  | .delete _ input => [input]

/-! ## Text -/

/-- Texts with commas between them. -/
def commas (items : List String) : String := String.intercalate ", " items

/-- A result with its name, unless that is the name of its column. -/
def resultText (item : ResultItem) : String :=
  match item.expr with
  | .column c => if c.name = item.name then item.expr.sql else item.expr.sql ++ " AS " ++ item.name
  | e => e.sql ++ " AS " ++ item.name

/-- A term of a sort order with its direction. -/
def orderText (item : BoundOrderItem) : String :=
  item.expr.sql ++ (if item.descending then " DESC" else " ASC")

/-- What an operator does, apart from its inputs. -/
def detail : Operator → String
  | .tableScan table => table.text
  | .indexScan range =>
      range.index.text ++ ", " ++ range.text ++
        (if range.lexicographic then ", lexicographic" else "")
  | .values rows => commas (rows.map fun row => "[" ++ commas (row.map BoundExpr.sql) ++ "]")
  | .filter predicate _ => predicate.sql
  | .product _ => ""
  | .project results _ => commas (results.map resultText)
  | .sort order _ => commas (order.map orderText)
  | .insert table targets _ => table.text ++ "(" ++ commas (targets.map (·.name)) ++ ")"
  | .update table assignments _ =>
      table.text ++ ", " ++
        commas (assignments.map fun (target, value) => target.name ++ " = " ++ value.sql)
  | .delete table _ => table.text

mutual

/-- The operators of a tree with their depths, each before its inputs. -/
def outline (depth : Nat) (op : Operator) : List (Nat × Operator) :=
  (depth, op) ::
    match op with
    | .tableScan _ | .indexScan _ | .values _ => []
    | .product inputs => outlineInputs (depth + 1) inputs
    | .filter _ input | .project _ input | .sort _ input | .insert _ _ input
    | .update _ _ input | .delete _ input => input.outline (depth + 1)

def outlineInputs (depth : Nat) : List Operator → List (Nat × Operator)
  | [] => []
  | op :: rest => op.outline depth ++ outlineInputs depth rest

end

/-- The line of an operator at a depth. -/
def line (depth : Nat) (op : Operator) : String :=
  String.ofList (List.replicate (2 * depth) ' ') ++ op.name ++ "(" ++ op.detail ++ ")\n"

/-- The text of a tree. -/
def text (op : Operator) : String :=
  String.join ((op.outline 0).map fun (depth, op) => op.line depth)

end Operator

end QueryPlanner
