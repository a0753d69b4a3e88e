import QueryPlanner.Plan.Compile
import QueryPlanner.Text.Lines

/-!
# Explaining plans

What users are shown of a compilation, whether it gave a plan, was refused, or does not apply to the
statement.
-/

namespace QueryPlanner

/-- The name of a type that may be unknown. -/
def DataType.nameOrUnresolved (type : Option DataType) : String :=
  match type with
  | some type => type.name
  | none => "unresolved"

/-- The lines that show an operator tree. -/
def Operator.lines (op : Operator) : List String := Text.lines op.text

/-- What is shown of a compilation. -/
inductive Explanation where
  | accepted (plan : Plan)
  | rejected (error : PlanError)
  | notApplicable (statement : String)

namespace Explanation

/-- What to show of the outcome of compiling a statement. -/
def ofOutcome (statement : Statement) : Except PlanError Outcome → Explanation
  | .ok (.plan plan) => .accepted plan
  | .ok .notApplicable => .notApplicable statement.text
  | .error e => .rejected e

def isAccepted : Explanation → Bool
  | .accepted _ => true
  | _ => false

def status : Explanation → String
  | .accepted _ => "ACCEPTED"
  | .rejected _ => "REJECTED"
  | .notApplicable _ => "NOT APPLICABLE"

/-- A heading with items below it; nothing without items. -/
def listing (heading mark : String) (items : List String) : List String :=
  if items.isEmpty then [] else heading :: items.map (mark ++ ·)

/-- The lines about results. -/
def resultLines (plan : Plan) : List String :=
  plan.results.map fun c => c.name ++ ": " ++ DataType.nameOrUnresolved c.type

/-- The lines about placeholders. -/
def parameterLines (plan : Plan) : List String :=
  plan.parameters.zipIdx.map fun (type, i) =>
    "$" ++ toString (i + 1) ++ ": " ++ DataType.nameOrUnresolved type

/-- The lines about a plan. -/
def planLines (plan : Plan) : List String :=
  ["Statement: " ++ plan.statement, "Kind: " ++ plan.kind] ++
    listing "Operators:" "  " plan.root.lines ++
    listing "Result Columns:" "  - " (resultLines plan) ++
    listing "Parameters:" "  - " (parameterLines plan) ++
    plan.offset.toList.map (fun n => "Offset: " ++ toString n.toNat) ++
    plan.limit.toList.map (fun n => "Limit: " ++ toString n.toNat)

/-- The lines of an explanation. -/
def lines (e : Explanation) : List String :=
  ["=== EXPLAIN PLAN ===", "Status: " ++ e.status] ++
    match e with
    | .accepted plan => planLines plan
    | .rejected error => ["Error Code: " ++ error.code.name, "Reason: " ++ error.message]
    | .notApplicable statement => ["Statement: " ++ statement]

/-- The text of an explanation. -/
def text (e : Explanation) : String := String.join (e.lines.map (· ++ "\n"))

end Explanation

end QueryPlanner
