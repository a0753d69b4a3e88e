/-!
# Binary floating-point numbers

Finite numbers of 64 bits, kept as their sign, exponent field and fraction field, and their exact
value: a significand times a power of two.
-/

namespace QueryPlanner

/-- The weight of the leading one of 53 binary digits. -/
def Binary64.leadingWeight : Nat := 0x10000000000000

/-- A finite floating-point number of 64 bits. -/
structure Binary64 where
  negative : Bool
  /-- The exponent field; `0` marks the numbers below the normal range. -/
  exponent : Nat
  /-- The fraction field, of 52 binary digits. -/
  fraction : Nat
  exponent_lt : exponent < 2047 := by decide
  fraction_lt : fraction < Binary64.leadingWeight := by decide
  deriving DecidableEq

namespace Binary64

/-- Zero with a sign. -/
def zero (negative : Bool) : Binary64 := { negative, exponent := 0, fraction := 0 }

/-- The whole number that the exponent scales. -/
def significand (d : Binary64) : Nat :=
  if d.exponent = 0 then d.fraction else leadingWeight + d.fraction

/-- The power of two that scales the significand. -/
def scale (d : Binary64) : Int := max d.exponent 1 - 1075

/-- Whether the number is zero, of either sign. -/
def isZero (d : Binary64) : Bool := d.exponent == 0 && d.fraction == 0

/-- Equality of values: the two zeros are equal, and otherwise the fields decide. -/
def sameNumber (a b : Binary64) : Bool := (a.isZero && b.isZero) || a == b

/-- A power of two. -/
def powerOfTwo (k : Nat) : Nat := 1 <<< k

theorem significand_lt (d : Binary64) : d.significand < 2 * leadingWeight := by
  have h := d.fraction_lt
  unfold significand
  split <;> omega

@[simp] theorem sameNumber_refl (d : Binary64) : sameNumber d d = true := by
  simp [sameNumber]

end Binary64

end QueryPlanner
