import QueryPlanner.AccessPath.Choice
import QueryPlanner.Binding
import QueryPlanner.Plan.Basic

/-!
# Compiling statements

A statement is bound, its expressions are given types, and an access path is chosen for every table
it reads.  Nothing of a session changes.  The same statement, session and known parameter types
always give the same plan.
-/

namespace QueryPlanner

namespace Typing

/-- A computation that has nothing to do with slots. -/
def ofExcept {α : Type} : Except PlanError α → Typing α
  | .ok a => pure a
  | .error e => throw e

/-- The result of a computation on the given slots, with the slots it leaves. -/
def runOn {α : Type} (slots : Slots) (t : Typing α) : Except PlanError (α × Slots) :=
  match t.run slots with
  | .ok a slots => .ok (a, slots)
  | .error e _ => .error e

end Typing

/-! ## Queries -/

/-- The operator that reads a table.  It has the number `source` in its scope. -/
def Table.access (t : Table) (source : Nat) (conjuncts : List BoundExpr) :
    Except PlanError Operator := do
  match ← chooseRange t source conjuncts with
  | some range => return .indexScan range
  | none => return .tableScan t.name

namespace Operator

/-- The rows of several sources together.  Without sources there is one empty row. -/
def combine : List Operator → Operator
  | [] => .values [[]]
  | [input] => input
  | inputs => .product inputs

/-- The rows that satisfy a predicate, all of them without one. -/
def restrict (predicate : Option BoundExpr) (input : Operator) : Operator :=
  match predicate with
  | none => input
  | some predicate => .filter predicate input

/-- The rows in a sort order, as they come without one. -/
def arrange (order : List BoundOrderItem) (input : Operator) : Operator :=
  if order.isEmpty then input else .sort order input

end Operator

/-- Gives types to the expressions of a query: its predicate, its results, its sort order. -/
def BoundSelect.resolve (q : BoundSelect) : Typing (List ResultColumn) := do
  if let some predicate := q.predicate then predicate.resolvePredicate
  let results ← q.results.mapM fun item => return ⟨item.name, ← item.expr.resolve⟩
  q.order.forM fun item => discard item.expr.resolve
  return results

mutual

/-- The operators of a query whose own expressions have types. -/
def BoundSelect.operator : BoundSelect → Except PlanError Operator
  | ⟨sources, results, predicate, order, _, _⟩ => do
      let conjuncts := predicate.toList.flatMap BoundExpr.conjuncts
      let inputs ← sourceOperators conjuncts 0 sources
      return .project results (.arrange order (.restrict predicate (.combine inputs)))

/-- The operators of sources, the first of which has the given number. -/
def sourceOperators (conjuncts : List BoundExpr) (number : Nat) :
    List BoundSource → Except PlanError (List Operator)
  | [] => return []
  | source :: rest => do
      let op ← source.operator conjuncts number
      return op :: (← sourceOperators conjuncts (number + 1) rest)

/-- The operator of a source.  The query of a view has no placeholders. -/
def BoundSource.operator (conjuncts : List BoundExpr) (number : Nat) :
    BoundSource → Except PlanError Operator
  | ⟨_, origin, _⟩ => origin.operator conjuncts number

def SourceOrigin.operator (conjuncts : List BoundExpr) (number : Nat) :
    SourceOrigin → Except PlanError Operator
  | .table t => t.access number conjuncts
  | .view _ query => do
      discard (query.resolve.runOn [])
      query.operator

end

/-! ## Changes of rows -/

namespace Table

/-- The column of a table that a statement writes. -/
def target (t : Table) (name : String) : Except PlanError TargetColumn :=
  match t.column? name with
  | some (position, column) => .ok ⟨position, column.name⟩
  | none => .error (.unknownColumn (t.name.text ++ "." ++ name))

/-- The columns that an insertion writes, none of them twice. -/
def targets (t : Table) (before : List TargetColumn) :
    List String → Except PlanError (List TargetColumn)
  | [] => .ok before
  | name :: rest => do
      let target ← t.target name
      if before.any (·.position == target.position) then
        throw (.invalidStatement (.repeatedTarget target.name))
      t.targets (before ++ [target]) rest

/-- All columns of a table as targets. -/
def allTargets (t : Table) : List TargetColumn :=
  t.columns.zipIdx.map fun (column, position) => ⟨position, column.name⟩

/-- The type of a target. -/
def targetType (t : Table) (target : TargetColumn) : Option DataType :=
  t.columns[target.position]?.map (·.type)

/-- The rows that an update or a deletion reads. -/
def filteredAccess (t : Table) (scope : Scope) (predicate : Option Expr) : Typing Operator := do
  match predicate with
  | none => .ofExcept (t.access 0 [])
  | some predicate =>
      let predicate ← .ofExcept (scope.bindExpr predicate)
      predicate.resolvePredicate
      return .filter predicate (← .ofExcept (t.access 0 predicate.conjuncts))

end Table

/-- Requires as many values as there are targets. -/
def checkWidth (targets values : Nat) : Except PlanError Unit :=
  if targets = values then .ok () else .error (.invalidStatement (.insertWidth targets values))

/-- A row of values for targets; its expressions see no columns. -/
def Table.valueRow (t : Table) (targets : List TargetColumn) (row : List Expr) :
    Typing (List BoundExpr) := do
  .ofExcept (checkWidth targets.length row.length)
  (targets.zip row).mapM fun (target, e) => do
    let bound ← .ofExcept (Scope.bindExpr [] e)
    bound.resolveFor (t.targetType target)
    return bound

/-- Requires the results of a query to fit the targets. -/
def Table.checkResults (t : Table) (targets : List TargetColumn) (results : List ResultColumn) :
    Except PlanError Unit :=
  (targets.zip results).forM fun (target, result) =>
    match result.type, t.targetType target with
    | some actual, some expected =>
        if actual.comparable expected then .ok ()
        else .error (.typeMismatch target.name (.notAssignable actual expected))
    | _, _ => .ok ()

namespace Session

/-- A query with its results. -/
def compileSelect (s : Session) (query : Select) : Typing (Operator × List ResultColumn) := do
  let bound ← .ofExcept (s.bindSelect query)
  let results ← bound.resolve
  return (← .ofExcept bound.operator, results)

/-- The rows that an insertion adds. -/
def compileInsertSource (s : Session) (t : Table) (targets : List TargetColumn) :
    InsertSource → Typing Operator
  | .values rows => return .values (← rows.mapM (t.valueRow targets))
  | .select query => do
      let (root, results) ← s.compileSelect query
      .ofExcept (checkWidth targets.length results.length)
      .ofExcept (t.checkResults targets results)
      return root

/-- An insertion.  Without a list of columns it writes all of them. -/
def compileInsert (s : Session) (table : ObjectName) (columns : List String)
    (source : InsertSource) : Typing Operator := do
  let t ← .ofExcept (s.bindTable table)
  let targets ←
    if columns.isEmpty then pure t.allTargets else .ofExcept (t.targets [] columns)
  return .insert t.name targets (← s.compileInsertSource t targets source)

/-- An assignment of an update. -/
def compileAssignment (t : Table) (scope : Scope) (a : Assignment) :
    Typing (TargetColumn × BoundExpr) := do
  let target ← .ofExcept (t.target a.column)
  let value ← .ofExcept (scope.bindExpr a.value)
  value.resolveFor (t.targetType target)
  return (target, value)

/-- An update. -/
def compileUpdate (s : Session) (table : ObjectName) (assignments : List Assignment)
    (predicate : Option Expr) : Typing Operator := do
  let t ← .ofExcept (s.bindTable table)
  let scope : Scope := [.ofTable t none]
  let assignments ← assignments.mapM (compileAssignment t scope)
  return .update t.name assignments (← t.filteredAccess scope predicate)

/-- A deletion. -/
def compileDelete (s : Session) (table : ObjectName) (predicate : Option Expr) :
    Typing Operator := do
  let t ← .ofExcept (s.bindTable table)
  return .delete t.name (← t.filteredAccess [.ofTable t none] predicate)

/-! ## Statements -/

/-- The operators and results of a statement on rows. -/
def compileRows (s : Session) (statement : Statement) :
    Typing (Operator × List ResultColumn) :=
  match statement with
  | .select query => s.compileSelect query
  | .insert table columns source => return (← s.compileInsert table columns source, [])
  | .update table assignments predicate =>
      return (← s.compileUpdate table assignments predicate, [])
  | .delete table predicate => return (← s.compileDelete table predicate, [])
  | other => throw (.invalidStatement (.notManipulation other.text))

/-- The highest number of placeholders that a statement may have. -/
def maxParameters : Nat := 65535

/-- The plan of a statement on rows. -/
def compilePlan (s : Session) (statement : Statement) (hints : List (Option DataType)) :
    Except PlanError Plan := do
  let count := statement.parameterCount
  if maxParameters < count then
    throw (.invalidStatement (.tooManyParameters count maxParameters))
  let ((root, results), parameters) ←
    (s.compileRows statement).runOn (.ofHints count hints)
  let (offset, limit) := match statement with
    | .select query => (query.offset, query.limit)
    | _ => (none, none)
  return { statement := statement.text, root, results, parameters, offset, limit }

/-- Compiles a statement, given the types of placeholders that the caller knows. -/
def compile (s : Session) (statement : Statement) (hints : List (Option DataType)) :
    Except PlanError Outcome :=
  match statement.category with
  | .manipulation => return .plan (← s.compilePlan statement hints)
  | .definition => .ok .notApplicable
  | .unsupported => .error (.unsupported statement.text)

end Session

end QueryPlanner
