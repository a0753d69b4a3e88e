import QueryPlanner.DataType
import QueryPlanner.Number.Rounding
import QueryPlanner.Number.Shortest

/-!
# Literal values

The scalars that statements and index bounds hold, their types, their SQL text and their form in
documents.
-/

namespace QueryPlanner

/-- A scalar value. -/
inductive Value where
  | null
  | boolean (value : Bool)
  | integer (value : Int64)
  | double (value : Binary64)
  | text (value : String)
  deriving DecidableEq

namespace Value

/-- The type a value has by itself; `NULL` has none. -/
def dataType? : Value → Option DataType
  | .null => none
  | .boolean _ => some .boolean
  | .integer _ => some .bigint
  | .double _ => some .double
  | .text _ => some .varchar

def isNull : Value → Bool
  | .null => true
  | _ => false

/-- The characters of a text. -/
def text? : Value → Option String
  | .text value => some value
  | _ => none

/-- A text as an SQL literal: every quote in it is written twice. -/
def quoteText (s : String) : String :=
  String.ofList ('\'' :: s.toList.flatMap (fun c => if c = '\'' then ['\'', '\''] else [c]) ++
    ['\''])

/-- The SQL text of a value. -/
def sql : Value → String
  | .null => "NULL"
  | .boolean value => if value then "true" else "false"
  | .integer value => toString value.toInt
  | .double value => value.text
  | .text value => quoteText value

/-! ## In documents -/

/-- The integer of 64 bits with the given value. -/
def int64? (n : Int) : Option Int64 :=
  if Int64.minValue.toInt ≤ n ∧ n ≤ Int64.maxValue.toInt then some (Int64.ofInt n) else none

theorem int64?_toInt (n : Int64) : int64? n.toInt = some n := by
  rw [int64?, if_pos ⟨n.minValue_le_toInt, n.toInt_le⟩, Int64.ofInt_toInt]

def toJson : Value → Json
  | .null => .null
  | .boolean value => .bool value
  | .integer value => .integer value.toInt
  | .double value => .double value
  | .text value => .string value

/-- The value of a scalar.  An integer of more than 64 bits with sign becomes the nearest
floating-point number. -/
def ofJson? : Json → Option Value
  | .null => some .null
  | .bool value => some (.boolean value)
  | .integer n =>
      match int64? n with
      | some value => some (.integer value)
      | none => (Binary64.ofInt? n).map .double
  | .double value => some (.double value)
  | .string value => some (.text value)
  | _ => none

@[simp] theorem ofJson?_toJson (v : Value) : ofJson? v.toJson = some v := by
  cases v <;> simp [toJson, ofJson?, int64?_toInt]

end Value

end QueryPlanner
