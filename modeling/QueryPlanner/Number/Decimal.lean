import QueryPlanner.Number.Rounding

/-!
# Decimal numbers of documents

How the number denoted by decimal digits is found.  Of the digits only so many count as fit a word
of 64 bits.  The number they make is rounded, and then multiplied or divided by a power of ten that
has been rounded itself.  The result is the nearest number as long as the digits make a number
below `2 ^ 53` and the power of ten is at most the 22nd; otherwise it may be a neighbour of it.
-/

namespace QueryPlanner

namespace Binary64

/-- The number nearest to a power of ten. -/
def powerOfTen? (power : Nat) : Option Binary64 := ofRatio? false (Nat.pow 10 power) 1

/-- The highest power of ten in the range of the format. -/
def maxPowerOfTen : Nat := 308

/-- The power to go on with after a division by the highest power of ten is closer to zero. -/
theorem toNat_neg_add_lt {power : Int} (h : power < -(maxPowerOfTen : Int)) :
    (-(power + (maxPowerOfTen : Int))).toNat < (-power).toNat := by
  simp only [maxPowerOfTen] at h ⊢
  omega

/-- A number times a power of ten, rounded.  A power of ten below the range of the format is
divided by in steps, each of which rounds. -/
def timesPowerOfTen? (d : Binary64) (power : Int) : Option Binary64 :=
  if h : power < -(maxPowerOfTen : Int) then
    if d.isZero then some d
    else do
      have := toNat_neg_add_lt h
      let quotient ← d.div? (← powerOfTen? maxPowerOfTen)
      quotient.timesPowerOfTen? (power + (maxPowerOfTen : Int))
  else if power < 0 then do
    d.div? (← powerOfTen? (-power).toNat)
  else if power ≤ (maxPowerOfTen : Int) then do
    d.mul? (← powerOfTen? power.toNat)
  else if d.isZero then some d
  else none
termination_by (-power).toNat

end Binary64

/-- The number `digits * 10 ^ power`. -/
structure Decimal where
  digits : Nat
  power : Int
  deriving DecidableEq

namespace Decimal

/-- Appends digits to a number as long as it stays below `2 ^ 64`; the other digits are left. -/
def append (n : Nat) : List Nat → Nat × List Nat
  | [] => (n, [])
  | digit :: rest =>
      if 10 * n + digit < UInt64.size then append (10 * n + digit) rest else (n, digit :: rest)

/-- What counts of the digits before and behind a point, times a power of ten.  A digit left out
before the point weighs as a zero. -/
def ofDigits (whole fraction : List Nat) (power : Int) : Decimal :=
  let (front, left) := append 0 whole
  let (digits, unused) := append front fraction
  { digits, power := power + left.length - (fraction.length - unused.length : Nat) }

/-- The floating-point number that a decimal number and a sign denote. -/
def toBinary64? (d : Decimal) (negative : Bool) : Option Binary64 := do
  let magnitude ← (← Binary64.ofInt? d.digits).timesPowerOfTen? d.power
  return { magnitude with negative }

end Decimal

end QueryPlanner
