import QueryPlanner.Json.Members
import QueryPlanner.Statement.Basic

/-!
# Statements as documents

The JSON form of statements.  Alternatives are objects with a member `kind`; members that are not
known are passed over.  Writing fills every optional member in.  Arrays of the values of members,
which the planner takes in place of objects, are not read (see `QueryPlanner.Json.Members`).
-/

namespace QueryPlanner

open Json

/-! ## Expressions -/

namespace BinaryOp

def toJson (op : BinaryOp) : Json := .string op.name

def ofJson? (strictness : Strictness) (j : Json) : Option BinaryOp :=
  (j.unitName? strictness).bind ofName?

end BinaryOp

namespace Expr

/-- The alternatives of an expression. -/
inductive Kind where
  | column
  | literal
  | parameter
  | binary
  | not
  | isNull
  | between
  | row
  deriving DecidableEq

namespace Kind

def all : List Kind :=
  [.column, .literal, .parameter, .binary, .not, .isNull, .between, .row]

def name : Kind → String
  | .column => "column"
  | .literal => "literal"
  | .parameter => "parameter"
  | .binary => "binary"
  | .not => "not"
  | .isNull => "is_null"
  | .between => "between"
  | .row => "row"

end Kind

mutual

/-- The document of an expression. -/
def toJson : Expr → Json
  | .column table name =>
      .object [("kind", .string Kind.column.name), ("name", .string name),
        ("table", ofOption .string table)]
  | .literal value => .object [("kind", .string Kind.literal.name), ("value", value.toJson)]
  | .parameter index =>
      .object [("index", ofWord index), ("kind", .string Kind.parameter.name)]
  | .binary op left right =>
      .object [("kind", .string Kind.binary.name), ("left", left.toJson), ("op", op.toJson),
        ("right", right.toJson)]
  | .not operand => .object [("expr", operand.toJson), ("kind", .string Kind.not.name)]
  | .isNull operand negated =>
      .object [("expr", operand.toJson), ("kind", .string Kind.isNull.name),
        ("negated", .bool negated)]
  | .between operand low high negated =>
      .object [("expr", operand.toJson), ("high", high.toJson),
        ("kind", .string Kind.between.name), ("low", low.toJson), ("negated", .bool negated)]
  | .row items =>
      .object [("items", .array (toJsonItems items)), ("kind", .string Kind.row.name)]

def toJsonItems : List Expr → List Json
  | [] => []
  | item :: rest => item.toJson :: toJsonItems rest

end

private theorem sizeOf_item_lt {members : List (String × Json)} {name : String} {j : Json}
    {items : List Json} (h : required? members name = some (.array items)) (hj : j ∈ items) :
    sizeOf j < sizeOf (Json.object members) := by
  have hitems := sizeOf_lt_of_required? h
  have hitem := List.sizeOf_lt_of_mem hj
  simp only [Json.array.sizeOf_spec] at hitems
  omega

/-- The expression of a document. -/
def ofJson? (strictness : Strictness) (j : Json) : Option Expr :=
  match j with
  | .object members => do
      match ← tag? strictness Kind.all Kind.name members with
      | .column => return .column (← maybe? text? members "table") (← need? text? members "name")
      | .literal => return .literal (← need? Value.ofJson? members "value")
      | .parameter => return .parameter (← need? word? members "index")
      | .binary =>
          let op ← need? (BinaryOp.ofJson? .lenient) members "op"
          let ⟨left, _⟩ ← (required? members "left").attach
          let ⟨right, _⟩ ← (required? members "right").attach
          return .binary op (← ofJson? .lenient left) (← ofJson? .lenient right)
      | .not =>
          let ⟨operand, _⟩ ← (required? members "expr").attach
          return .not (← ofJson? .lenient operand)
      | .isNull =>
          let ⟨operand, _⟩ ← (required? members "expr").attach
          return .isNull (← ofJson? .lenient operand) (← orElse? flag? members "negated" false)
      | .between =>
          let ⟨operand, _⟩ ← (required? members "expr").attach
          let ⟨low, _⟩ ← (required? members "low").attach
          let ⟨high, _⟩ ← (required? members "high").attach
          return .between (← ofJson? .lenient operand) (← ofJson? .lenient low)
            (← ofJson? .lenient high) (← orElse? flag? members "negated" false)
      | .row =>
          match h : required? members "items" with
          | some (.array items) =>
              return .row (← items.attach.mapM fun ⟨item, hitem⟩ =>
                have := sizeOf_item_lt h hitem
                ofJson? .lenient item)
          | _ => none
  | _ => none
termination_by sizeOf j
decreasing_by all_goals first
  | assumption
  | exact sizeOf_lt_of_required? (by assumption)

end Expr

/-! ## Parts of statements -/

namespace ObjectName

def toJson (n : ObjectName) : Json :=
  .object [("name", .string n.name), ("schema", ofOption .string n.schema)]

def ofJson? : Json → Option ObjectName
  | .object members => do
      return { schema := ← maybe? text? members "schema", name := ← need? text? members "name" }
  | _ => none

end ObjectName

namespace SelectItem

/-- The alternatives of an entry of a select list. -/
inductive Kind where
  | wildcard
  | qualifiedWildcard
  | expr
  deriving DecidableEq

namespace Kind

def all : List Kind := [.wildcard, .qualifiedWildcard, .expr]

def name : Kind → String
  | .wildcard => "wildcard"
  | .qualifiedWildcard => "qualified_wildcard"
  | .expr => "expr"

end Kind

def toJson : SelectItem → Json
  | .wildcard => .object [("kind", .string Kind.wildcard.name)]
  | .qualifiedWildcard table =>
      .object [("kind", .string Kind.qualifiedWildcard.name), ("table", .string table)]
  | .expr e aliasName defaultName =>
      .object [("alias", ofOption .string aliasName), ("default_name", ofOption .string defaultName),
        ("expr", e.toJson), ("kind", .string Kind.expr.name)]

def ofJson? (strictness : Strictness) : Json → Option SelectItem
  | .object members => do
      match ← tag? strictness Kind.all Kind.name members with
      | .wildcard => return .wildcard
      | .qualifiedWildcard => return .qualifiedWildcard (← need? text? members "table")
      | .expr =>
          return .expr (← need? (Expr.ofJson? .lenient) members "expr")
            (← maybe? text? members "alias") (← maybe? text? members "default_name")
  | _ => none

end SelectItem

namespace TableRef

def toJson (r : TableRef) : Json :=
  .object [("alias", ofOption .string r.aliasName), ("name", r.name.toJson)]

def ofJson? : Json → Option TableRef
  | .object members => do
      return {
        name := ← need? ObjectName.ofJson? members "name"
        aliasName := ← maybe? text? members "alias" }
  | _ => none

end TableRef

namespace OrderItem

def toJson (o : OrderItem) : Json :=
  .object [("descending", .bool o.descending), ("expr", o.expr.toJson)]

def ofJson? (strictness : Strictness) : Json → Option OrderItem
  | .object members => do
      return {
        expr := ← need? (Expr.ofJson? strictness) members "expr"
        descending := ← orElse? flag? members "descending" false }
  | _ => none

end OrderItem

namespace Select

/-- The members of a query. -/
def toMembers (q : Select) : List (String × Json) :=
  [("columns", .array (q.items.map SelectItem.toJson)),
    ("from", .array (q.sources.map TableRef.toJson)),
    ("limit", ofOption ofWord q.limit),
    ("offset", ofOption ofWord q.offset),
    ("order_by", .array (q.order.map OrderItem.toJson)),
    ("where", ofOption Expr.toJson q.predicate)]

def toJson (q : Select) : Json := .object q.toMembers

/-- The query that members describe. -/
def ofMembers? (strictness : Strictness) (members : List (String × Json)) : Option Select := do
  return {
    items := ← need? (list? (SelectItem.ofJson? strictness)) members "columns"
    sources := ← orElse? (list? TableRef.ofJson?) members "from" []
    predicate := ← maybe? (Expr.ofJson? strictness) members "where"
    order := ← orElse? (list? (OrderItem.ofJson? strictness)) members "order_by" []
    offset := ← maybe? word? members "offset"
    limit := ← maybe? word? members "limit" }

def ofJson? (strictness : Strictness) : Json → Option Select
  | .object members => ofMembers? strictness members
  | _ => none

end Select

namespace InsertSource

/-- The alternatives of a source of rows. -/
inductive Kind where
  | values
  | select
  deriving DecidableEq

namespace Kind

def all : List Kind := [.values, .select]

def name : Kind → String
  | .values => "values"
  | .select => "select"

end Kind

def toJson : InsertSource → Json
  | .values rows =>
      .object [("kind", .string Kind.values.name),
        ("rows", .array (rows.map fun row => .array (row.map Expr.toJson)))]
  | .select query => .object [("kind", .string Kind.select.name), ("query", query.toJson)]

def ofJson? (strictness : Strictness) : Json → Option InsertSource
  | .object members => do
      match ← tag? strictness Kind.all Kind.name members with
      | .values =>
          return .values (← need? (list? (list? (Expr.ofJson? .lenient))) members "rows")
      | .select => return .select (← need? (Select.ofJson? .lenient) members "query")
  | _ => none

end InsertSource

namespace Assignment

def toJson (a : Assignment) : Json :=
  .object [("column", .string a.column), ("value", a.value.toJson)]

def ofJson? (strictness : Strictness) : Json → Option Assignment
  | .object members => do
      return {
        column := ← need? text? members "column"
        value := ← need? (Expr.ofJson? strictness) members "value" }
  | _ => none

end Assignment

namespace ColumnDefinition

def toJson (d : ColumnDefinition) : Json :=
  .object [("collation", ofOption .string d.collation), ("name", .string d.name),
    ("nullable", .bool d.nullable), ("type", d.type.toJson)]

def ofJson? (strictness : Strictness) : Json → Option ColumnDefinition
  | .object members => do
      return {
        name := ← need? text? members "name"
        type := ← need? (DataType.ofJson? strictness) members "type"
        nullable := ← orElse? flag? members "nullable" true
        collation := ← maybe? text? members "collation" }
  | _ => none

end ColumnDefinition

/-! ## Statements -/

namespace Statement

/-- The kinds of statements. -/
inductive Kind where
  | select
  | insert
  | update
  | delete
  | createSchema
  | dropSchema
  | createTable
  | dropTable
  | createIndex
  | dropIndex
  | createView
  | dropView
  | alterTable
  | rename
  | revoke
  deriving DecidableEq

namespace Kind

def all : List Kind :=
  [.select, .insert, .update, .delete, .createSchema, .dropSchema, .createTable, .dropTable,
    .createIndex, .dropIndex, .createView, .dropView, .alterTable, .rename, .revoke]

def name : Kind → String
  | .select => "select"
  | .insert => "insert"
  | .update => "update"
  | .delete => "delete"
  | .createSchema => "create_schema"
  | .dropSchema => "drop_schema"
  | .createTable => "create_table"
  | .dropTable => "drop_table"
  | .createIndex => "create_index"
  | .dropIndex => "drop_index"
  | .createView => "create_view"
  | .dropView => "drop_view"
  | .alterTable => "alter_table"
  | .rename => "rename"
  | .revoke => "revoke"

end Kind

/-- An object with a kind and further members. -/
private def tagged (kind : Kind) (members : List (String × Json)) : Json :=
  .object (("kind", .string kind.name) :: members)

private def texts (items : List String) : Json := .array (items.map .string)

/-- The document of a statement. -/
def toJson : Statement → Json
  | .select query => tagged .select query.toMembers
  | .insert table columns source =>
      tagged .insert
        [("columns", texts columns), ("source", source.toJson), ("table", table.toJson)]
  | .update table assignments predicate =>
      tagged .update
        [("assignments", .array (assignments.map Assignment.toJson)), ("table", table.toJson),
          ("where", ofOption Expr.toJson predicate)]
  | .delete table predicate =>
      tagged .delete [("table", table.toJson), ("where", ofOption Expr.toJson predicate)]
  | .createSchema name => tagged .createSchema [("name", .string name)]
  | .dropSchema name => tagged .dropSchema [("name", .string name)]
  | .createTable table columns =>
      tagged .createTable
        [("columns", .array (columns.map ColumnDefinition.toJson)), ("table", table.toJson)]
  | .dropTable table => tagged .dropTable [("table", table.toJson)]
  | .createIndex name table columns unique =>
      tagged .createIndex
        [("columns", texts columns), ("name", .string name), ("table", table.toJson),
          ("unique", .bool unique)]
  | .dropIndex name table =>
      tagged .dropIndex [("name", .string name), ("table", table.toJson)]
  | .createView name columns query =>
      tagged .createView
        [("columns", texts columns), ("name", .string name), ("query", query.toJson)]
  | .dropView name => tagged .dropView [("name", .string name)]
  | .alterTable table => tagged .alterTable [("table", table.toJson)]
  | .rename source target =>
      tagged .rename [("from", source.toJson), ("to", target.toJson)]
  | .revoke target grantee =>
      tagged .revoke [("grantee", .string grantee), ("object", target.toJson)]

/-- The statement of a document. -/
def ofJson? (strictness : Strictness) : Json → Option Statement
  | .object members => do
      let table := need? ObjectName.ofJson? members
      let name := need? text? members "name"
      let names := list? text?
      let predicate := maybe? (Expr.ofJson? .lenient) members "where"
      match ← tag? strictness Kind.all Kind.name members with
      | .select => return .select (← Select.ofMembers? .lenient members)
      | .insert =>
          return .insert (← table "table") (← orElse? names members "columns" [])
            (← need? (InsertSource.ofJson? .lenient) members "source")
      | .update =>
          return .update (← table "table")
            (← need? (list? (Assignment.ofJson? .lenient)) members "assignments") (← predicate)
      | .delete => return .delete (← table "table") (← predicate)
      | .createSchema => return .createSchema (← name)
      | .dropSchema => return .dropSchema (← name)
      | .createTable =>
          return .createTable (← table "table")
            (← need? (list? (ColumnDefinition.ofJson? .lenient)) members "columns")
      | .dropTable => return .dropTable (← table "table")
      | .createIndex =>
          return .createIndex (← name) (← table "table") (← need? names members "columns")
            (← orElse? flag? members "unique" false)
      | .dropIndex => return .dropIndex (← name) (← table "table")
      | .createView =>
          return .createView (← name) (← orElse? names members "columns" [])
            (← need? (Select.ofJson? .lenient) members "query")
      | .dropView => return .dropView (← name)
      | .alterTable => return .alterTable (← table "table")
      | .rename => return .rename (← table "from") (← table "to")
      | .revoke => return .revoke (← table "object") (← need? text? members "grantee")
  | _ => none

end Statement

/-! ## Requests -/

/-- A statement to compile, and the parameter types that the caller knows. -/
structure Request where
  statement : Statement
  hints : List (Option DataType) := []

namespace Request

/-- The list of known parameter types. -/
def hints? : Json → Option (List (Option DataType)) := list? (nullOr? (DataType.ofJson? .strict))

/-- A request with a member for its statement. -/
def ofMembers? (members : List (String × Json)) : Option Request := do
  return {
    statement := ← need? (Statement.ofJson? .lenient) members "statement"
    hints := ← orElse? hints? members "parameter_types" [] }

/-- The request of a document: an object with a statement and perhaps hints, or else the
statement itself. -/
def ofJson? (j : Json) : Option Request :=
  let withHints := match j with
    | .object members => ofMembers? members
    | _ => none
  match withHints with
  | some request => some request
  | none => (Statement.ofJson? .lenient j).map ({ statement := · })

end Request

end QueryPlanner
