import QueryPlanner.Catalog.Table
import QueryPlanner.Plan.Error
import QueryPlanner.Statement.Expr

/-!
# Key ranges

A key range bounds the traversal of an index.  Each of its ends is a partial key: values for some
of the declared fields of the index.  A range is well formed when

* the fields that its ends select are the first fields of the index, without a gap;
* both ends, when there are two, select the same fields;
* every end has one value for each selected field.

A range that is not lexicographic stands for the entries that match it exactly on every bound field
but the last and lie within it on the last.  A lexicographic range is one interval of the
composite keys: from `(1, 10, 800)` to `(1, 20, 888)` it also admits `(1, 15, 0)`.
-/

namespace QueryPlanner

/-- A choice of declared fields. -/
inductive FieldSelector where
  | fields (positions : List Nat)
  /-- The fields before the given position. -/
  | leading (count : Nat)
  deriving DecidableEq

/-- Whether a choice includes the field at a position. -/
def FieldSelector.includes : FieldSelector → Nat → Bool
  | .fields positions, position => positions.contains position
  | .leading count, position => position < count

/-- A value of a partial key. -/
inductive BoundValue where
  | literal (value : Value)
  /-- The value of a placeholder, known when the plan runs. -/
  | parameter (index : UInt64)
  deriving DecidableEq

/-- The text of a value in plans. -/
def BoundValue.text : BoundValue → String
  | .literal value => value.sql
  | .parameter index => placeholder index

/-- A partial key: values for the selected fields, in the order of the fields. -/
structure IndexBound where
  values : List BoundValue
  selector : FieldSelector
  deriving DecidableEq

namespace IndexBound

/-- Values for the first fields of an index. -/
def ofLeading (values : List BoundValue) : IndexBound := ⟨values, .leading values.length⟩

def includes (b : IndexBound) (position : Nat) : Bool := b.selector.includes position

def text (b : IndexBound) : String :=
  "(" ++ String.intercalate ", " (b.values.map BoundValue.text) ++ ")"

end IndexBound

/-- An end of a range. -/
structure RangeEnd where
  bound : IndexBound
  inclusive : Bool
  deriving DecidableEq

/-- A range over an index. -/
structure KeyRange where
  index : Index
  lo : Option RangeEnd := none
  hi : Option RangeEnd := none
  /-- The number of bound fields, `0` for the whole index. -/
  boundColumns : Nat := 0
  lexicographic : Bool := false
  deriving DecidableEq

namespace KeyRange

/-! ## The shape of bounds -/

/-- Whether the bounds select a field; `none` when only one of two does. -/
def selects? (lo hi : Option IndexBound) (position : Nat) : Option Bool :=
  match lo, hi with
  | some lo, some hi =>
      if lo.includes position = hi.includes position then some (lo.includes position) else none
  | some b, none | none, some b => some (b.includes position)
  | none, none => some false

/-- Reads the selection at one more position, given the number of bound fields and whether no field
was left out before.  Disagreeing bounds are told before a gap. -/
def countField (index : Index) (lo hi : Option IndexBound) (bound : Nat × Bool) (position : Nat) :
    Except PlanError (Nat × Bool) :=
  match selects? lo hi position, bound with
  | none, _ => .error (.mismatchedBounds index.name position)
  | some false, (count, _) => .ok (count, false)
  | some true, (count, true) => .ok (count + 1, true)
  | some true, (_, false) => .error (.nonLeadingField index.name position)

/-- The number of leading fields that bounds select. -/
def countFields (index : Index) (lo hi : Option IndexBound) : Except PlanError Nat := do
  let (count, _) ← (List.range index.degree).foldlM (countField index lo hi) (0, true)
  return count

/-- Requires a bound to have a value for each bound field. -/
def checkSize (index : Index) (count : Nat) (side : Side) (bound : Option IndexBound) :
    Except PlanError Unit :=
  match bound with
  | none => .ok ()
  | some b =>
      if b.values.length = count then .ok ()
      else .error (.invalidArgument (.valueCount side b.values.length count index.name))

/-- The number of bound fields of well-formed bounds. -/
def boundFields (index : Index) (lo hi : Option IndexBound) : Except PlanError Nat := do
  let count ← countFields index lo hi
  checkSize index count .lo lo
  checkSize index count .hi hi
  return count

/-! ## Building ranges -/

/-- The range over the whole index. -/
def unbounded (index : Index) : KeyRange := { index }

/-- The range with the given ends. -/
def ofEnds (index : Index) (lo hi : Option RangeEnd) : Except PlanError KeyRange := do
  let boundColumns ← boundFields index (lo.map (·.bound)) (hi.map (·.bound))
  return { index, lo, hi, boundColumns }

/-- The bound at an end that has to be there. -/
def required (side : Side) (bound : Option IndexBound) : Except PlanError IndexBound :=
  match bound with
  | some b => .ok b
  | none => .error (.invalidArgument (.missing side))

/-- The range from a bound on. -/
def startingAt (index : Index) (lo : Option IndexBound) (inclusive : Bool) :
    Except PlanError KeyRange := do
  ofEnds index (some ⟨← required .lo lo, inclusive⟩) none

/-- The range up to a bound. -/
def endingAt (index : Index) (hi : Option IndexBound) (inclusive : Bool) :
    Except PlanError KeyRange := do
  ofEnds index none (some ⟨← required .hi hi, inclusive⟩)

/-- The range between two bounds. -/
def bounded (index : Index) (lo : Option IndexBound) (loInclusive : Bool)
    (hi : Option IndexBound) (hiInclusive : Bool) : Except PlanError KeyRange := do
  let lo ← required .lo lo
  let hi ← required .hi hi
  ofEnds index (some ⟨lo, loInclusive⟩) (some ⟨hi, hiInclusive⟩)

def isUnbounded (r : KeyRange) : Bool := r.lo.isNone && r.hi.isNone

/-! ## Text -/

/-- The text of an end, with the comparison that it stands for. -/
def endText (strict inclusive : String) : Option RangeEnd → String
  | none => ""
  | some e => (if e.inclusive then inclusive else strict) ++ " " ++ e.bound.text

/-- The text of a range in plans. -/
def text (r : KeyRange) : String :=
  "(" ++ endText ">" ">=" r.lo ++ ", " ++ endText "<" "<=" r.hi ++ ")"

end KeyRange

end QueryPlanner
