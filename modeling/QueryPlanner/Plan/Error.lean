import QueryPlanner.DataType

/-!
# Errors of planning

Why a statement has no plan.  Every error has a code and a category; errors about a name or an
expression also carry its text.  No error passes by itself: the same input always fails in the
same way.
-/

namespace QueryPlanner

/-- The two ends of a key range. -/
inductive Side where
  | lo
  | hi
  deriving DecidableEq

namespace Side

/-- The name of an end in messages. -/
def name : Side → String
  | .lo => "lo"
  | .hi => "hi"

end Side

/-- Why the bounds of a key range are refused. -/
inductive BoundFault where
  | missing (side : Side)
  /-- A bound carries another number of values than it binds fields. -/
  | valueCount (side : Side) (values fields : Nat) (index : String)
  | other (reason : String)
  deriving DecidableEq

/-- Why an expression has no type. -/
inductive TypeFault where
  | notAssignable (actual target : DataType)
  | notBoolean (actual : DataType)
  | notComparable (left right : DataType)
  | notNumeric (actual : DataType)
  | other (reason : String)
  deriving DecidableEq

/-- What is inconsistent in a statement. -/
inductive StatementFault where
  | repeatedSource (aliasName : String)
  | wildcardWithoutSource
  | viewWidth (view : String) (declared returned : Nat)
  /-- A row value outside of a comparison. -/
  | strayRow (expr : String)
  | rowArity (expr : String)
  | rowWithScalar (expr : String)
  | tooManyParameters (count limit : Nat)
  | repeatedTarget (column : String)
  | insertWidth (targets values : Nat)
  | notManipulation (statement : String)
  | other (reason : String)
  deriving DecidableEq

/-- Why a statement has no plan. -/
inductive PlanError where
  | invalidArgument (fault : BoundFault)
  | nonLeadingField (index : String) (position : Nat)
  | mismatchedBounds (index : String) (position : Nat)
  | unknownSchema (name : String)
  | unknownTable (name : String)
  | unknownColumn (name : String)
  | ambiguousColumn (name : String)
  | recursiveView (name : String)
  | typeMismatch (expr : String) (fault : TypeFault)
  | invalidStatement (fault : StatementFault)
  | unsupported (statement : String)
  | parametersUnsupported
  deriving DecidableEq

/-! ## Codes -/

/-- The kinds of errors. -/
inductive ErrorCode where
  | invalidArgument
  | nonLeadingField
  | mismatchedBounds
  | unknownSchema
  | unknownTable
  | unknownColumn
  | ambiguousColumn
  | recursiveView
  | typeMismatch
  | invalidStatement
  | unsupported
  deriving DecidableEq

/-- The broad classes of errors. -/
inductive ErrorCategory where
  /-- A key range does not fit its index. -/
  | structural
  /-- A name or a type does not resolve. -/
  | resolution
  /-- The statement is recognized, but not planned. -/
  | featureGap
  deriving DecidableEq

namespace ErrorCode

/-- The name of a code in documents and messages. -/
def name : ErrorCode → String
  | .invalidArgument => "PLAN_INVALID_ARGUMENT"
  | .nonLeadingField => "PLAN_NON_LEADING_FIELD"
  | .mismatchedBounds => "PLAN_MISMATCHED_BOUNDS"
  | .unknownSchema => "PLAN_UNKNOWN_SCHEMA"
  | .unknownTable => "PLAN_UNKNOWN_TABLE"
  | .unknownColumn => "PLAN_UNKNOWN_COLUMN"
  | .ambiguousColumn => "PLAN_AMBIGUOUS_COLUMN"
  | .recursiveView => "PLAN_RECURSIVE_VIEW"
  | .typeMismatch => "PLAN_TYPE_MISMATCH"
  | .invalidStatement => "PLAN_INVALID_STATEMENT"
  | .unsupported => "PLAN_UNSUPPORTED"

def category : ErrorCode → ErrorCategory
  | .invalidArgument | .nonLeadingField | .mismatchedBounds => .structural
  | .unknownSchema | .unknownTable | .unknownColumn | .ambiguousColumn | .recursiveView
  | .typeMismatch | .invalidStatement => .resolution
  | .unsupported => .featureGap

/-- What an error does to its statement, in messages: it always rejects it. -/
def severity (_ : ErrorCode) : String := "REJECT"

end ErrorCode

/-- The name of a class of errors. -/
def ErrorCategory.name : ErrorCategory → String
  | .structural => "structural"
  | .resolution => "resolution"
  | .featureGap => "feature gap"

/-! ## Wording -/

/-- The wording of a fault. -/
def BoundFault.message : BoundFault → String
  | .missing side => "IndexBound " ++ side.name ++ " must be specified"
  | .valueCount side values fields index =>
      "IndexBound " ++ side.name ++ " has " ++ toString values ++ " values for " ++
        toString fields ++ " bound fields of index " ++ index
  | .other reason => reason

/-- The wording of a fault. -/
def TypeFault.message : TypeFault → String
  | .notAssignable actual target => "cannot assign " ++ actual.name ++ " to " ++ target.name
  | .notBoolean actual => "expected boolean, found " ++ actual.name
  | .notComparable left right => "cannot compare " ++ left.name ++ " with " ++ right.name
  | .notNumeric actual => actual.name ++ " is not numeric"
  | .other reason => reason

/-- The wording of a fault. -/
def StatementFault.message : StatementFault → String
  | .repeatedSource aliasName => "Table name '" ++ aliasName ++ "' specified more than once"
  | .wildcardWithoutSource => "SELECT * requires a FROM clause"
  | .viewWidth view declared returned =>
      "View '" ++ view ++ "' declares " ++ toString declared ++ " columns but its query returns " ++
        toString returned
  | .strayRow expr => "Row value " ++ expr ++ " is only allowed in a comparison"
  | .rowArity expr => "Row values of different arity in '" ++ expr ++ "'"
  | .rowWithScalar expr => "Row value compared with a scalar in '" ++ expr ++ "'"
  | .tooManyParameters count limit =>
      "Parameter index " ++ toString (count - 1) ++ " exceeds the limit of " ++ toString limit ++
        " parameters"
  | .repeatedTarget column => "Column '" ++ column ++ "' specified more than once"
  | .insertWidth targets values =>
      "INSERT has " ++ toString targets ++ " target columns but " ++ toString values ++ " values"
  | .notManipulation statement => statement ++ " is not a data manipulation statement"
  | .other reason => reason

namespace PlanError

/-- The code of an error. -/
def code : PlanError → ErrorCode
  | .invalidArgument _ => .invalidArgument
  | .nonLeadingField .. => .nonLeadingField
  | .mismatchedBounds .. => .mismatchedBounds
  | .unknownSchema _ => .unknownSchema
  | .unknownTable _ => .unknownTable
  | .unknownColumn _ => .unknownColumn
  | .ambiguousColumn _ => .ambiguousColumn
  | .recursiveView _ => .recursiveView
  | .typeMismatch .. => .typeMismatch
  | .invalidStatement _ => .invalidStatement
  | .unsupported _ | .parametersUnsupported => .unsupported

/-- The wording of an error. -/
def message : PlanError → String
  | .invalidArgument fault => fault.message
  | .nonLeadingField index position =>
      "Bound on field " ++ toString position ++ " of index " ++ index ++
        " does not follow a bound leading field"
  | .mismatchedBounds index position =>
      "Low and high bounds of index " ++ index ++ " disagree on field " ++ toString position
  | .unknownSchema name => "Schema '" ++ name ++ "' not found"
  | .unknownTable name => "Table '" ++ name ++ "' not found"
  | .unknownColumn name => "Column '" ++ name ++ "' not found"
  | .ambiguousColumn name => "Column '" ++ name ++ "' is ambiguous"
  | .recursiveView name => "View '" ++ name ++ "' refers to itself"
  | .typeMismatch expr fault => "Type mismatch in '" ++ expr ++ "': " ++ fault.message
  | .invalidStatement fault => fault.message
  | .unsupported statement => statement ++ " not supported yet"
  | .parametersUnsupported => "Parameters not supported"

/-- The name or expression at fault. -/
def identifier? : PlanError → Option String
  | .unknownSchema name | .unknownTable name | .unknownColumn name | .ambiguousColumn name
  | .recursiveView name => some name
  | .typeMismatch expr _ => some expr
  | _ => none

/-- An error with its code, as it is shown to users. -/
def text (e : PlanError) : String :=
  "[" ++ e.code.severity ++ "] " ++ e.code.name ++ ": " ++ e.message

end PlanError

end QueryPlanner
