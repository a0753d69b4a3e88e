import QueryPlanner.Json.Members

/-!
# Column types

The types a column can have, how numeric types widen, and which types can be compared.
-/

namespace QueryPlanner

/-- The type of a column or an expression. -/
inductive DataType where
  | boolean
  /-- Signed integers of 32 bits. -/
  | integer
  /-- Signed integers of 64 bits. -/
  | bigint
  | double
  /-- Texts, ordered by the collation of the column. -/
  | varchar
  deriving DecidableEq

namespace DataType

/-- The name of a type in statements, documents and messages. -/
def name : DataType → String
  | .boolean => "boolean"
  | .integer => "integer"
  | .bigint => "bigint"
  | .double => "double"
  | .varchar => "varchar"

/-- Every type. -/
def all : List DataType := [.boolean, .integer, .bigint, .double, .varchar]

/-- The type with a name, which is matched exactly. -/
def ofName? (s : String) : Option DataType := all.find? (·.name == s)

/-- How wide a numeric type is. -/
def numericRank? : DataType → Option Nat
  | .integer => some 0
  | .bigint => some 1
  | .double => some 2
  | _ => none

def isNumeric (t : DataType) : Bool := t.numericRank?.isSome

def isString (t : DataType) : Bool := t == .varchar

/-- The wider of two numeric types. -/
def promote? (a b : DataType) : Option DataType := do
  let rankA ← a.numericRank?
  let rankB ← b.numericRank?
  return if rankB ≤ rankA then a else b

/-- Whether values of the two types can be compared: one type, or two numeric types. -/
def comparable (a b : DataType) : Bool := a == b || (a.isNumeric && b.isNumeric)

@[simp] theorem ofName?_name (t : DataType) : ofName? t.name = some t := by
  cases t <;> rfl

@[simp] theorem comparable_refl (t : DataType) : comparable t t = true := by
  simp [comparable]

end DataType

/-! ## In documents -/

namespace DataType

open Json (Strictness)

def toJson (t : DataType) : Json := .string t.name

def ofJson? (strictness : Strictness) (j : Json) : Option DataType :=
  (j.unitName? strictness).bind ofName?

@[simp] theorem ofJson?_toJson (strictness : Strictness) (t : DataType) :
    ofJson? strictness t.toJson = some t := by
  simp [ofJson?, toJson, Json.unitName?]

end DataType

end QueryPlanner
