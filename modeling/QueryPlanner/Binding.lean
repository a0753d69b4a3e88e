import QueryPlanner.Bound.Query
import QueryPlanner.Session.Basic
import QueryPlanner.Typing

/-!
# Finding what names mean

Tables, views and columns of a query are looked up in a session.  A reference to a view stands for
the query of the view, which is bound anew at every reference and sees nothing of the query around
it.  Views may refer to views; the names of those being expanded are kept, and the expansion ends
because each of them is a different view of the session.
-/

namespace QueryPlanner

/-! ## Columns and expressions -/

namespace Scope

/-- The column that a reference means.  Without a qualifier all sources are searched, and only one
of them may have such a column. -/
def resolve (scope : Scope) (qualifier : Option String) (name : String) :
    Except PlanError BoundColumn :=
  match qualifier with
  | some qualifier =>
      match scope.source? qualifier with
      | none => .error (.unknownTable qualifier)
      | some (source, number) =>
          match source.find? number name with
          | none => .error (.unknownColumn (qualifier ++ "." ++ name))
          | some column => .ok column
  | none =>
      match scope.candidates name with
      | [] => .error (.unknownColumn name)
      | [column] => .ok column
      | _ => .error (.ambiguousColumn name)

mutual

/-- Finds the columns of an expression. -/
def bindExpr (scope : Scope) : Expr → Except PlanError BoundExpr
  | .column table name => return .column (← scope.resolve table name)
  | .literal value => return .literal value
  | .parameter index => return .parameter index
  | .binary op left right => return .binary op (← scope.bindExpr left) (← scope.bindExpr right)
  | .not operand => return .not (← scope.bindExpr operand)
  | .isNull operand negated => return .isNull (← scope.bindExpr operand) negated
  | .between operand low high negated =>
      return .between (← scope.bindExpr operand) (← scope.bindExpr low) (← scope.bindExpr high)
        negated
  | .row items => return .row (← scope.bindExprs items)

/-- Finds the columns of several expressions. -/
def bindExprs (scope : Scope) : List Expr → Except PlanError (List BoundExpr)
  | [] => return []
  | item :: rest => return (← scope.bindExpr item) :: (← scope.bindExprs rest)

end

/-- The result that shows a column under its own name. -/
def columnResult (column : BoundColumn) : ResultItem := ⟨.column column, column.name⟩

/-- The name of a result: its alias, the name of its column, the name the parser gave it, or its
text. -/
def resultName (aliasName defaultName : Option String) (e : Expr) (bound : BoundExpr) : String :=
  match aliasName, bound with
  | some aliasName, _ => aliasName
  | none, .column c => c.name
  | none, _ => defaultName.getD e.sql

/-- The results of an entry of a select list. -/
def bindItem (scope : Scope) : SelectItem → Except PlanError (List ResultItem)
  | .wildcard =>
      if scope.isEmpty then .error (.invalidStatement .wildcardWithoutSource)
      else .ok (scope.references.map columnResult)
  | .qualifiedWildcard table =>
      match scope.source? table with
      | none => .error (.unknownTable table)
      | some (source, number) => .ok ((source.references number).map columnResult)
  | .expr e aliasName defaultName => do
      let bound ← scope.bindExpr e
      return [⟨bound, resultName aliasName defaultName e bound⟩]

/-- Finds the columns of a term of a sort order. -/
def bindOrderItem (scope : Scope) (item : OrderItem) : Except PlanError BoundOrderItem := do
  return ⟨← scope.bindExpr item.expr, item.descending⟩

end Scope

/-! ## Queries -/

namespace Select

/-- Binds sources one after the other; no two may go by one name. -/
def bindSources (bindSource : TableRef → Except PlanError BoundSource) (before : Scope) :
    List TableRef → Except PlanError Scope
  | [] => .ok before
  | r :: rest => do
      let source ← bindSource r
      if before.any fun s => Text.sameLetters s.aliasName source.aliasName then
        throw (.invalidStatement (.repeatedSource source.aliasName))
      bindSources bindSource (before ++ [source]) rest

/-- Binds a query, given what its sources are. -/
def bindWith (bindSource : TableRef → Except PlanError BoundSource) (query : Select) :
    Except PlanError BoundSelect := do
  let scope ← bindSources bindSource [] query.sources
  let results ← query.items.mapM scope.bindItem
  let predicate ← query.predicate.mapM scope.bindExpr
  let order ← query.order.mapM scope.bindOrderItem
  return {
    sources := scope
    results := results.flatten
    predicate
    order
    offset := query.offset
    limit := query.limit }

end Select

namespace View

/-- The collation that a result has as a column of a view. -/
def resultCollation : BoundExpr → Option CollationId
  | .column c => c.collation
  | _ => none

/-- The types of results, in which no placeholder has a type. -/
def resultTypes (results : List ResultItem) : Except PlanError (List (Option DataType)) :=
  match (results.mapM fun (item : ResultItem) => item.expr.resolve).run [] with
  | .ok types _ => .ok types
  | .error e _ => .error e

/-- The source that a reference to a view stands for, given the bound query of the view. -/
def source (view : View) (aliasName : Option String) (query : BoundSelect) :
    Except PlanError BoundSource := do
  if !view.columns.isEmpty && view.columns.length != query.results.length then
    throw (.invalidStatement
      (.viewWidth view.name view.columns.length query.results.length))
  let types ← resultTypes query.results
  let columns := (query.results.zip types).zipIdx.map fun ((item, type), i) =>
    { name := view.columns[i]?.getD item.name, type, collation := resultCollation item.expr }
  return { aliasName := aliasName.getD view.name, origin := .view view.name query, columns }

end View

namespace Session

/-- The table that a name means. -/
def bindTable (s : Session) (name : ObjectName) : Except PlanError Table :=
  let tableName := name.qualify s.defaultSchema
  if s.catalog.hasSchema tableName.schema then
    match s.catalog.table? tableName with
    | some table => .ok table
    | none => .error (.unknownTable tableName.text)
  else .error (.unknownSchema tableName.schema)

/-- The view that a name means; a qualified name means none. -/
def view? (s : Session) (name : ObjectName) : Option View :=
  match name.schema with
  | some _ => none
  | none => s.views.find? name.name

/-- The views of a session that are not being expanded. -/
def unexpanded (s : Session) (expanding : List String) : List View :=
  s.views.items.filter fun v => Named.key v ∉ expanding

theorem mem_views_of_view? {s : Session} {name : ObjectName} {v : View}
    (h : s.view? name = some v) : v ∈ s.views.items := by
  unfold view? at h
  split at h
  · simp at h
  · exact Directory.mem_of_find? h

theorem length_unexpanded_lt {s : Session} {expanding : List String} {v : View}
    (hv : v ∈ s.views.items) (hkey : Named.key v ∉ expanding) :
    (s.unexpanded (Named.key v :: expanding)).length < (s.unexpanded expanding).length := by
  have hsplit : s.unexpanded (Named.key v :: expanding) =
      (s.unexpanded expanding).filter fun w => Named.key w ≠ Named.key v := by
    simp [unexpanded, List.filter_filter, List.mem_cons, not_or]
  rw [hsplit]
  exact List.length_filter_lt_length_iff_exists.2
    ⟨v, List.mem_filter.2 ⟨hv, by simpa using hkey⟩, by simp⟩

/-- The source that a reference to a table or view stands for.  The lowercase names of the views
being expanded are given. -/
def bindSource (s : Session) (expanding : List String) (r : TableRef) :
    Except PlanError BoundSource :=
  match h : s.view? r.name with
  | none => return .ofTable (← s.bindTable r.name) r.aliasName
  | some view =>
      if hkey : Named.key view ∈ expanding then .error (.recursiveView view.name)
      else do
        have := length_unexpanded_lt (mem_views_of_view? h) hkey
        let query ← view.query.bindWith fun r => s.bindSource (Named.key view :: expanding) r
        view.source r.aliasName query
termination_by (s.unexpanded expanding).length

/-- Binds a query. -/
def bindSelect (s : Session) (query : Select) : Except PlanError BoundSelect :=
  query.bindWith (s.bindSource [])

end Session

end QueryPlanner
