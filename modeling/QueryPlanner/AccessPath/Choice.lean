import QueryPlanner.AccessPath.SearchArgument

/-!
# Choosing an index

At most one index serves a table in a query.  The candidates are ranges that the search arguments
of the predicate give on the indexes of the table, and the choice follows fixed rules: most bound
fields, then most fields bound by an equality, then the smallest name of the index.

The predicate is tested on every row nevertheless, so a range only has to contain the rows that
satisfy it.
-/

namespace QueryPlanner

namespace BoundValue

/-- Whether two literals denote one value of an index field: texts by the collation of the field,
an integer and a floating-point number by the number nearest to the integer. -/
def sameLiteral (field : IndexField) : Value → Value → Bool
  | .text a, .text b =>
      match Collation.ofColumn field.collation with
      | .ok c => c.compare a b == .eq
      | .error _ => false
  | .integer n, .double d | .double d, .integer n =>
      match Binary64.ofInt? n.toInt with
      | some e => e.sameNumber d
      | none => false
  | .double a, .double b => a.sameNumber b
  | a, b => a == b

/-- Whether two bounds on a field are equal in every execution.  A placeholder is known to be equal
to itself only. -/
def provablyEqual (field : IndexField) : BoundValue → BoundValue → Bool
  | .parameter a, .parameter b => a == b
  | .literal a, .literal b => sameLiteral field a b
  | _, _ => false

end BoundValue

namespace KeyRange

/-- Whether both ends are known to agree on the field at a position. -/
def isFixed (r : KeyRange) (lo hi : IndexBound) (position : Nat) : Bool :=
  match r.index.fields[position]?, lo.values[position]?, hi.values[position]? with
  | some field, some a, some b => BoundValue.provablyEqual field a b
  | _, _, _ => false

/-- Makes a range with two ends lexicographic unless these are known to agree on every bound field
before the last. -/
def settle (r : KeyRange) : KeyRange :=
  match r.lo, r.hi with
  | some lo, some hi =>
      { r with
        lexicographic :=
          (List.range (r.boundColumns - 1)).any fun p => !r.isFixed lo.bound hi.bound p }
  | _, _ => r

@[simp] theorem index_settle (r : KeyRange) : r.settle.index = r.index := by
  unfold settle
  split <;> rfl

@[simp] theorem lo_settle (r : KeyRange) : r.settle.lo = r.lo := by
  unfold settle
  split <;> rfl

@[simp] theorem hi_settle (r : KeyRange) : r.settle.hi = r.hi := by
  unfold settle
  split <;> rfl

@[simp] theorem boundColumns_settle (r : KeyRange) : r.settle.boundColumns = r.boundColumns := by
  unfold settle
  split <;> rfl

end KeyRange

/-- A range that serves a predicate. -/
structure Candidate where
  range : KeyRange
  /-- The number of fields bound by an equality. -/
  equalities : Nat

namespace Candidate

/-- Whether a candidate is to be preferred to another one. -/
def isBetter (a b : Candidate) : Bool :=
  if a.range.boundColumns ≠ b.range.boundColumns then
    b.range.boundColumns < a.range.boundColumns
  else if a.equalities ≠ b.equalities then b.equalities < a.equalities
  else a.range.index.name < b.range.index.name

/-- The first of the candidates to which none is to be preferred. -/
def best? (candidates : List Candidate) : Option Candidate :=
  candidates.foldl (fun best c =>
    match best with
    | none => some c
    | some b => if c.isBetter b then some c else some b) none

/-- The values of the longest run of leading fields that equalities bind. -/
def fixedValues (arguments : List SearchArgument) : List IndexField → List BoundValue
  | [] => []
  | field :: rest =>
      match SearchArgument.equal? arguments field.columnPosition with
      | some value => value :: fixedValues arguments rest
      | none => []

/-- The candidate that single columns give: a run of equalities on the first fields, and an
interval on the next one. -/
def ofColumns (arguments : List SearchArgument) (index : Index) :
    Except PlanError (Option Candidate) := do
  let fixed := fixedValues arguments index.fields
  let next := index.fields[fixed.length]?
  let extend : BoundValue × Bool → RangeEnd := fun (value, inclusive) =>
    ⟨.ofLeading (fixed ++ [value]), inclusive⟩
  let lo := next.bind fun field => SearchArgument.lower? arguments field.columnPosition
  let hi := next.bind fun field => SearchArgument.upper? arguments field.columnPosition
  if lo.isNone && hi.isNone then
    if fixed.isEmpty then return none
    let both : RangeEnd := ⟨.ofLeading fixed, true⟩
    let range ← KeyRange.ofEnds index (some both) (some both)
    return some ⟨range.settle, fixed.length⟩
  let range ← KeyRange.ofEnds index (lo.map extend) (hi.map extend)
  return some ⟨range.settle, fixed.length⟩

/-- The candidate that a row of columns gives, if these are the first fields of the index.  With
one end only, a row of several columns is compared as a whole. -/
def ofRow (index : Index) (row : RowInterval) : Except PlanError (Option Candidate) := do
  let width := row.positions.length
  let leading := (index.fields.map (·.columnPosition)).take width
  if width = 0 || leading != row.positions then return none
  let toEnd : List BoundValue × Bool → RangeEnd := fun (values, inclusive) =>
    ⟨.ofLeading values, inclusive⟩
  if row.lower.isNone && row.upper.isNone then return none
  let range ← KeyRange.ofEnds index (row.lower.map toEnd) (row.upper.map toEnd)
  if row.lower.isNone || row.upper.isNone then
    return some ⟨{ range with lexicographic := decide (1 < width) }, 0⟩
  return some ⟨range.settle, if row.exact then width else 0⟩

/-- The candidates on an index. -/
def onIndex (arguments : List SearchArgument) (index : Index) :
    Except PlanError (List Candidate) := do
  let columns ← ofColumns arguments index
  let rows ← (RowInterval.all arguments).mapM (ofRow index)
  return columns.toList ++ rows.filterMap id

end Candidate

/-- The range to read a table through, if an index serves the conjuncts.  The table has the number
`source` in the scope of the query. -/
def chooseRange (table : Table) (source : Nat) (conjuncts : List BoundExpr) :
    Except PlanError (Option KeyRange) := do
  let arguments := conjuncts.flatMap (SearchArgument.ofConjunct source)
  let candidates ← table.indexes.mapM (Candidate.onIndex arguments)
  return (Candidate.best? candidates.flatten).map (·.range)

end QueryPlanner
