import QueryPlanner.Plan.Operator
import QueryPlanner.Typing

/-!
# Plans

The result of compiling a statement: its operators, the results it returns and the types of its
placeholders.
-/

namespace QueryPlanner

/-- A result that a query returns. -/
structure ResultColumn where
  name : String
  type : Option DataType
  deriving DecidableEq

/-- A compiled statement. -/
structure Plan where
  /-- The short text of the statement. -/
  statement : String
  root : Operator
  /-- The returned results, for queries only. -/
  results : List ResultColumn
  /-- A slot for each placeholder. -/
  parameters : Slots
  offset : Option UInt64
  limit : Option UInt64

namespace Plan

/-- Whether the plan changes rows of a table. -/
def changesRows (p : Plan) : Bool := p.root.changesRows

/-- The word for what a plan does. -/
def kind (p : Plan) : String := if p.changesRows then "modify" else "query"

end Plan

/-- The outcome of compiling a statement that is not refused. -/
inductive Outcome where
  | plan (plan : Plan)
  /-- The statement declares something and has no plan; it is applied to the session instead. -/
  | notApplicable

end QueryPlanner
