import QueryPlanner.Bound.Expr
import QueryPlanner.KeyRange

/-!
# Search arguments

The conjuncts of a predicate that an index can serve: comparisons of a column, or of a row of
columns, with constants.  A constant is a literal other than `NULL`, or a placeholder.
-/

namespace QueryPlanner

/-- How a constant restricts what it is compared with. -/
inductive Restriction where
  | exactly
  | atLeast (inclusive : Bool)
  | atMost (inclusive : Bool)
  deriving DecidableEq

/-- The restriction of `x op constant` on `x`. -/
def BinaryOp.restriction? : BinaryOp → Option Restriction
  | .eq => some .exactly
  | .gt => some (.atLeast false)
  | .gtEq => some (.atLeast true)
  | .lt => some (.atMost false)
  | .ltEq => some (.atMost true)
  | _ => none

/-- A restriction on columns of one source, which are given by their positions. -/
inductive SearchArgument where
  | column (position : Nat) (restriction : Restriction) (value : BoundValue)
  /-- A row of columns compared as one value. -/
  | row (positions : List Nat) (restriction : Restriction) (values : List BoundValue)
  deriving DecidableEq

namespace BoundExpr

/-- The position of a column of a source. -/
def columnOf? (source : Nat) : BoundExpr → Option Nat
  | .column c => if c.source = source then some c.position else none
  | _ => none

/-- The value of a constant. -/
def constant? : BoundExpr → Option BoundValue
  | .literal .null => none
  | .literal value => some (.literal value)
  | .parameter index => some (.parameter index)
  | _ => none

/-- The positions of a row of columns of a source. -/
def columnsOf? (source : Nat) : BoundExpr → Option (List Nat)
  | .row items => items.mapM (columnOf? source)
  | _ => none

/-- The values of a row of constants. -/
def constants? : BoundExpr → Option (List BoundValue)
  | .row items => items.mapM constant?
  | _ => none

end BoundExpr

namespace SearchArgument

/-- A restriction on a row, if it has as many values as columns. -/
def ofRow? (positions : List Nat) (restriction : Restriction) (values : List BoundValue) :
    Option SearchArgument :=
  if positions.length = values.length then some (.row positions restriction values) else none

/-- What `left op right` says about a column on the left. -/
def ofScalars? (source : Nat) (op : BinaryOp) (left right : BoundExpr) :
    Option SearchArgument := do
  return .column (← left.columnOf? source) (← op.restriction?) (← right.constant?)

/-- What `left op right` says about a row of columns on the left. -/
def ofRows? (source : Nat) (op : BinaryOp) (left right : BoundExpr) : Option SearchArgument := do
  ofRow? (← left.columnsOf? source) (← op.restriction?) (← right.constants?)

/-- What a comparison says about columns on either of its sides. -/
def ofComparison? (source : Nat) (op : BinaryOp) (left right : BoundExpr) :
    Option SearchArgument :=
  ofScalars? source op left right <|> ofScalars? source op.flip right left <|>
    ofRows? source op left right <|> ofRows? source op.flip right left

/-- What a test for a range says about the columns in front of it, provided that both of its bounds
are constant. -/
def ofBetween (source : Nat) (operand low high : BoundExpr) : List SearchArgument :=
  match operand.columnOf? source, low.constant?, high.constant? with
  | some position, some low, some high =>
      [.column position (.atLeast true) low, .column position (.atMost true) high]
  | _, _, _ =>
      match operand.columnsOf? source, low.constants?, high.constants? with
      | some positions, some low, some high =>
          (ofRow? positions (.atLeast true) low).toList ++
            (ofRow? positions (.atMost true) high).toList
      | _, _, _ => []

/-- What a conjunct says about the columns of a source. -/
def ofConjunct (source : Nat) : BoundExpr → List SearchArgument
  | .binary op left right => (ofComparison? source op left right).toList
  | .between operand low high false => ofBetween source operand low high
  | _ => []

/-! ## Restrictions of one kind

Of several restrictions of the same kind on the same columns the first one counts. -/

/-- The value that a column equals. -/
def equal? (arguments : List SearchArgument) (position : Nat) : Option BoundValue :=
  arguments.findSome? fun
    | .column p .exactly value => if p = position then some value else none
    | _ => none

/-- The value below a column, and whether it is allowed itself. -/
def lower? (arguments : List SearchArgument) (position : Nat) : Option (BoundValue × Bool) :=
  arguments.findSome? fun
    | .column p (.atLeast inclusive) value =>
        if p = position then some (value, inclusive) else none
    | _ => none

/-- The value above a column, and whether it is allowed itself. -/
def upper? (arguments : List SearchArgument) (position : Nat) : Option (BoundValue × Bool) :=
  arguments.findSome? fun
    | .column p (.atMost inclusive) value =>
        if p = position then some (value, inclusive) else none
    | _ => none

end SearchArgument

/-! ## Rows -/

/-- The interval to which a row of columns is restricted. -/
structure RowInterval where
  positions : List Nat
  lower : Option (List BoundValue × Bool) := none
  upper : Option (List BoundValue × Bool) := none
  /-- Whether both ends come from one equality. -/
  exact : Bool := false
  deriving DecidableEq

namespace RowInterval

/-- Adds a restriction.  An end that is already there stays, and an equality counts only as long as
there is no end. -/
def restrict (r : RowInterval) (restriction : Restriction) (values : List BoundValue) :
    RowInterval :=
  match restriction with
  | .exactly =>
      if r.lower.isNone && r.upper.isNone then
        { r with lower := some (values, true), upper := some (values, true), exact := true }
      else r
  | .atLeast inclusive => { r with lower := r.lower.or (some (values, inclusive)) }
  | .atMost inclusive => { r with upper := r.upper.or (some (values, inclusive)) }

/-- The interval of one row of columns. -/
def ofArguments (arguments : List SearchArgument) (positions : List Nat) : RowInterval :=
  arguments.foldl (fun r argument =>
    match argument with
    | .row p restriction values => if p = positions then r.restrict restriction values else r
    | .column .. => r) { positions }

/-- The intervals of all rows of columns, in the order of their first restrictions. -/
def all (arguments : List SearchArgument) : List RowInterval :=
  let rows := arguments.filterMap fun
    | .row positions _ _ => some positions
    | .column .. => none
  rows.eraseDups.map (ofArguments arguments)

end RowInterval

end QueryPlanner
