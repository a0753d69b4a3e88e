import QueryPlanner.Catalog.Change
import QueryPlanner.Statement.Expr

/-!
# Statements

The parsed statements that the planner is given, how each kind is treated, the short text that
plans and messages show of it, its parameters, and the change to the catalog that it declares.
-/

namespace QueryPlanner

/-- The name of a table or another object, with or without its schema. -/
structure ObjectName where
  schema : Option String := none
  name : String
  deriving DecidableEq

namespace ObjectName

/-- The name as it was written. -/
def text (n : ObjectName) : String :=
  match n.schema with
  | some schema => schema ++ "." ++ n.name
  | none => n.name

/-- The table a name means when unqualified names belong to the given schema. -/
def qualify (n : ObjectName) (defaultSchema : String) : TableName :=
  ⟨n.schema.getD defaultSchema, n.name⟩

end ObjectName

/-- An entry of a select list. -/
inductive SelectItem where
  /-- Every column of every source. -/
  | wildcard
  /-- Every column of one source. -/
  | qualifiedWildcard (table : String)
  /-- An expression.  An expression without alias may carry the name the parser gave it. -/
  | expr (expr : Expr) (aliasName : Option String) (defaultName : Option String)

/-- A table or view to read from. -/
structure TableRef where
  name : ObjectName
  aliasName : Option String := none
  deriving DecidableEq

/-- A term of a sort order. -/
structure OrderItem where
  expr : Expr
  descending : Bool := false

/-- A query. -/
structure Select where
  items : List SelectItem
  sources : List TableRef := []
  predicate : Option Expr := none
  order : List OrderItem := []
  offset : Option UInt64 := none
  limit : Option UInt64 := none

/-- Where the rows of an insertion come from. -/
inductive InsertSource where
  | values (rows : List (List Expr))
  | select (query : Select)

/-- A new value for a column. -/
structure Assignment where
  column : String
  value : Expr

/-- A parsed statement. -/
inductive Statement where
  | select (query : Select)
  /-- No target columns means every column in declared order. -/
  | insert (table : ObjectName) (columns : List String) (source : InsertSource)
  | update (table : ObjectName) (assignments : List Assignment) (predicate : Option Expr)
  | delete (table : ObjectName) (predicate : Option Expr)
  | createSchema (name : String)
  | dropSchema (name : String)
  | createTable (table : ObjectName) (columns : List ColumnDefinition)
  | dropTable (table : ObjectName)
  | createIndex (name : String) (table : ObjectName) (columns : List String) (unique : Bool)
  | dropIndex (name : String) (table : ObjectName)
  | createView (name : String) (columns : List String) (query : Select)
  | dropView (name : String)
  | alterTable (table : ObjectName)
  | rename (source target : ObjectName)
  | revoke (object : ObjectName) (grantee : String)

/-- How a kind of statement is treated. -/
inductive StatementCategory where
  /-- Compiled into a plan. -/
  | manipulation
  /-- Applied to the catalog or the views of a session. -/
  | definition
  /-- Recognized, but nothing is done for it. -/
  | unsupported
  deriving DecidableEq

/-- The expressions of a query: the select list, the predicate, the sort order. -/
def Select.exprs (q : Select) : List Expr :=
  (q.items.flatMap fun
    | .expr e _ _ => [e]
    | _ => []) ++ q.predicate.toList ++ q.order.map (·.expr)

/-- One more than the highest placeholder among expressions, at most the largest count that fits
64 bits. -/
def parameterCount (exprs : List Expr) : Nat :=
  (exprs.flatMap Expr.parameters).foldl (fun n i => max n (min (i.toNat + 1) (UInt64.size - 1))) 0

/-- One more than the highest placeholder of a query. -/
def Select.parameterCount (q : Select) : Nat := QueryPlanner.parameterCount q.exprs

namespace Statement

/-- How a statement is treated. -/
def category : Statement → StatementCategory
  | .select _ | .insert .. | .update .. | .delete .. => .manipulation
  | .createSchema _ | .dropSchema _ | .createTable .. | .dropTable _ | .createIndex ..
  | .dropIndex .. | .createView .. | .dropView _ => .definition
  | .alterTable _ | .rename .. | .revoke .. => .unsupported

/-- The text that plans and messages show of a statement. -/
def text : Statement → String
  | .select _ => "SELECT"
  | .insert table _ _ => "INSERT INTO " ++ table.text
  | .update table _ _ => "UPDATE " ++ table.text
  | .delete table _ => "DELETE FROM " ++ table.text
  | .createSchema name => "CREATE SCHEMA " ++ name
  | .dropSchema name => "DROP SCHEMA " ++ name
  | .createTable table _ => "CREATE TABLE " ++ table.text
  | .dropTable table => "DROP TABLE " ++ table.text
  | .createIndex name table _ _ => "CREATE INDEX " ++ name ++ " ON " ++ table.text
  | .dropIndex name table => "DROP INDEX " ++ name ++ " ON " ++ table.text
  | .createView name _ _ => "CREATE VIEW " ++ name
  | .dropView name => "DROP VIEW " ++ name
  | .alterTable table => "ALTER TABLE " ++ table.text
  | .rename source target => "RENAME " ++ source.text ++ " TO " ++ target.text
  | .revoke object grantee => "REVOKE ON " ++ object.text ++ " FROM " ++ grantee

/-- The expressions of a statement. -/
def exprs : Statement → List Expr
  | .select query | .insert _ _ (.select query) | .createView _ _ query => query.exprs
  | .insert _ _ (.values rows) => rows.flatten
  | .update _ assignments predicate => assignments.map (·.value) ++ predicate.toList
  | .delete _ predicate => predicate.toList
  | _ => []

/-- One more than the highest placeholder of a statement. -/
def parameterCount (s : Statement) : Nat := QueryPlanner.parameterCount s.exprs

/-- The change to schemas, tables or indexes that a statement declares. -/
def change? (s : Statement) (defaultSchema : String) : Option Change :=
  match s with
  | .createSchema name => some (.createSchema name)
  | .dropSchema name => some (.dropSchema name)
  | .createTable table columns => some (.createTable (table.qualify defaultSchema) columns)
  | .dropTable table => some (.dropTable (table.qualify defaultSchema))
  | .createIndex name table columns unique =>
      some (.createIndex (table.qualify defaultSchema) name columns unique)
  | .dropIndex name table => some (.dropIndex (table.qualify defaultSchema) name)
  | _ => none

end Statement

end QueryPlanner
