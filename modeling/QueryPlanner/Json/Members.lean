import QueryPlanner.Json.Basic

/-!
# Reading members of an object

How the documents of the planner read the members of an object: required and optional ones, and
those with a value to fall back on.  A member that may be absent need not be allowed to be `null`,
and no member may be repeated.

Only objects are read as objects.  The planner also takes an array of the values of the members, in
their declared order and behind the alternative if there are several, in place of an object; such an
array is refused here.
-/

namespace QueryPlanner

namespace Json

def text? : Json → Option String
  | .string s => some s
  | _ => none

def flag? : Json → Option Bool
  | .bool b => some b
  | _ => none

/-- A natural number of 64 bits, written without fraction and exponent. -/
def word? : Json → Option UInt64
  | .integer n => if 0 ≤ n ∧ n < UInt64.size then some (UInt64.ofNat n.toNat) else none
  | _ => none

/-- The items of an array, each read in the same way. -/
def list? {α : Type} (read : Json → Option α) : Json → Option (List α)
  | .array items => items.mapM read
  | _ => none

/-- `null`, or what is read. -/
def nullOr? {α : Type} (read : Json → Option α) : Json → Option (Option α)
  | .null => some none
  | j => (read j).map some

/-- A member that has to be there. -/
def need? {α : Type} (read : Json → Option α) (members : List (String × Json)) (name : String) :
    Option α :=
  (required? members name).bind read

/-- A member that may be absent or `null`. -/
def maybe? {α : Type} (read : Json → Option α) (members : List (String × Json)) (name : String) :
    Option (Option α) :=
  match optional? members name with
  | none => none
  | some none => some none
  | some (some j) => nullOr? read j

/-- A member that has a value to fall back on when it is absent. -/
def orElse? {α : Type} (read : Json → Option α) (members : List (String × Json)) (name : String)
    (fallback : α) : Option α :=
  match optional? members name with
  | none => none
  | some none => some fallback
  | some (some j) => read j

/-! ## Alternatives -/

/-- How freely a document may say which alternative it holds. -/
inductive Strictness where
  /-- By name only. -/
  | strict
  /-- Inside an object that names its own alternative, and in the statement of a request, the number
  of an alternative does as well as its name, and an empty object as well as `null`. -/
  | lenient
  deriving DecidableEq

/-- The alternative that the member `kind` tells. -/
def tag? {κ : Type} (strictness : Strictness) (all : List κ) (name : κ → String)
    (members : List (String × Json)) : Option κ :=
  match required? members "kind" with
  | some (.string s) => all.find? (name · == s)
  | some (.integer n) => if strictness = .lenient ∧ 0 ≤ n then all[n.toNat]? else none
  | _ => none

/-- The name of an alternative that carries nothing: a text, or an object with that one name and
`null`. -/
def unitName? (strictness : Strictness) : Json → Option String
  | .string name => some name
  | .object [(name, .null)] => some name
  | .object [(name, .object [])] => if strictness = .lenient then some name else none
  | _ => none

/-! ## Writing -/

def ofOption {α : Type} (write : α → Json) : Option α → Json
  | none => .null
  | some a => write a

def ofWord (n : UInt64) : Json := .integer n.toNat

theorem word?_ofWord (n : UInt64) : word? (ofWord n) = some n := by
  simp only [ofWord, word?]
  rw [if_pos ⟨Int.natCast_nonneg _, Int.ofNat_lt.2 n.toNat_lt_size⟩]
  simp

end Json

end QueryPlanner
