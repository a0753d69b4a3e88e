import QueryPlanner.Number.Binary64

/-!
# Rounding to floating-point numbers

The floating-point number nearest to a quotient of natural numbers, and with it the product and
the quotient of two floating-point numbers.  A value half way between two neighbours goes to the one
with the even significand, and a value that rounds past the largest number has no result.
-/

namespace QueryPlanner

/-- The whole number nearest to `num / den`; a half goes to the even neighbour. -/
def roundHalfEven (num den : Nat) : Nat :=
  let whole := num / den
  let rest := num % den
  if 2 * rest < den then whole
  else if den < 2 * rest then whole + 1
  else whole + whole % 2

namespace Binary64

/-- Numerator and denominator of `num / den` divided by a power of two. -/
def scaledBy (num den : Nat) (power : Int) : Nat × Nat :=
  if 0 ≤ power then (num, den * powerOfTwo power.toNat)
  else (num * powerOfTwo (-power).toNat, den)

/-- Without its leading one, a significand of at most 53 digits fits the fraction field. -/
theorem fraction_lt_of_significand_lt {significand : Nat} (h : significand < 2 * leadingWeight) :
    significand - leadingWeight < leadingWeight := by
  have : 0 < leadingWeight := by decide
  omega

/-- The number with the given significand and scale.  A significand of fewer digits belongs to the
smallest scale. -/
def ofParts? (negative : Bool) (significand : Nat) (scale : Int) : Option Binary64 :=
  if small : significand < leadingWeight then
    some { zero negative with fraction := significand, fraction_lt := small }
  else if h : significand < 2 * leadingWeight ∧ (scale + 1075).toNat < 2047 then
    some {
      negative
      exponent := (scale + 1075).toNat
      fraction := significand - leadingWeight
      exponent_lt := h.2
      fraction_lt := fraction_lt_of_significand_lt h.1 }
  else none

/-- The scale at which the quotient has 53 significant bits, or the smallest scale. -/
def scaleOf (num den : Nat) : Int :=
  let guess : Int := max ((num.log2 : Int) - den.log2 - 53) (-1074)
  let (n, d) := scaledBy num den guess
  if 2 * leadingWeight ≤ n / d then guess + 1 else guess

/-- The number nearest to `num / den` with the given sign. -/
def ofRatio? (negative : Bool) (num den : Nat) : Option Binary64 :=
  if num = 0 then some (zero negative)
  else
    let scale := scaleOf num den
    let (n, d) := scaledBy num den scale
    let significand := roundHalfEven n d
    if significand = 2 * leadingWeight then ofParts? negative leadingWeight (scale + 1)
    else ofParts? negative significand scale

/-- The number nearest to an integer. -/
def ofInt? (n : Int) : Option Binary64 := ofRatio? (decide (n < 0)) n.natAbs 1

/-! ## Arithmetic -/

/-- The magnitude of a number as a quotient. -/
def ratio (d : Binary64) : Nat × Nat := scaledBy d.significand 1 (-d.scale)

/-- The number nearest to a product. -/
def mul? (a b : Binary64) : Option Binary64 :=
  let (numA, denA) := a.ratio
  let (numB, denB) := b.ratio
  ofRatio? (a.negative != b.negative) (numA * numB) (denA * denB)

/-- The number nearest to a quotient.  Nothing is divided by zero. -/
def div? (a b : Binary64) : Option Binary64 :=
  let (numA, denA) := a.ratio
  let (numB, denB) := b.ratio
  if b.isZero then none else ofRatio? (a.negative != b.negative) (numA * denB) (denA * numB)

end Binary64

end QueryPlanner
