import QueryPlanner.Number.Binary64

/-!
# Shortest decimal text of a floating-point number

A number is written with the fewest significant digits that still round back to it.  Among those
it takes the decimal nearest to its value, and the larger one of two equally near.  The text is
positional: it has no exponent, no point without digits behind it, and a sign on negative zero.
-/

namespace QueryPlanner

namespace Binary64

/-- The reals that round to a positive number, as multiples of a common unit: the number itself,
the two ends of the interval, and whether the ends belong to it. -/
structure RoundingInterval where
  value : Nat
  low : Nat
  high : Nat
  /-- The multiples are counts of `1 / unit`. -/
  unit : Nat
  closed : Bool

/-- The interval of a number that is not zero.  The gap below a power of two is half as wide as
the gap above it. -/
def roundingInterval (d : Binary64) : RoundingInterval :=
  let m := d.significand
  let below := if d.fraction = 0 ∧ 1 < d.exponent then 1 else 2
  let power := d.scale - 2
  let factor := powerOfTwo power.toNat
  { value := 4 * m * factor
    low := (4 * m - below) * factor
    high := (4 * m + 2) * factor
    unit := powerOfTwo (-power).toNat
    closed := m % 2 == 0 }

/-- The power of ten that a positive quotient reaches but does not exceed. -/
def decimalExponent (num den : Nat) : Int :=
  if den ≤ num then ((Nat.toDigits 10 (num / den)).length : Int) - 1
  else
    let size := (Nat.toDigits 10 (den / num)).length
    if den = num * Nat.pow 10 (size - 1) then 1 - (size : Int) else -(size : Int)

/-- The multiple of `10 ^ power` nearest to the value, among the two next to it that round back to
the value. -/
def RoundingInterval.onGrid? (r : RoundingInterval) (power : Int) : Option Nat :=
  let step := r.unit * Nat.pow 10 power.toNat
  let finer := Nat.pow 10 (-power).toNat
  let value := r.value * finer
  let inside (n : Nat) : Bool :=
    if r.closed then r.low * finer ≤ n * step && n * step ≤ r.high * finer
    else r.low * finer < n * step && n * step < r.high * finer
  let down := value / step
  let up := down + 1
  match inside down, inside up with
  | false, false => none
  | true, false => some down
  | false, true => some up
  | true, true => if value - down * step < up * step - value then some down else some up

/-- The shortest decimal `digits * 10 ^ power` that rounds back to a number other than zero. -/
def shortestDecimal (d : Binary64) : Nat × Int :=
  let r := d.roundingInterval
  let top := decimalExponent r.value r.unit
  let attempt (count : Nat) : Option (Nat × Int) :=
    let power := top - count
    (r.onGrid? power).map (·, power)
  ((List.range 17).findSome? attempt).getD (r.value / r.unit, 0)

end Binary64

/-- The positional text of `digits * 10 ^ power`, without zeros at the end of its fraction. -/
def positional (digits : Nat) (power : Int) : List Char :=
  if 0 ≤ power then Nat.toDigits 10 digits ++ List.replicate power.toNat '0'
  else
    let places := (-power).toNat
    let written := Nat.toDigits 10 digits
    let padded := List.replicate (places + 1 - written.length) '0' ++ written
    let whole := padded.take (padded.length - places)
    let fraction := padded.drop (padded.length - places)
    match (fraction.reverse.dropWhile (· == '0')).reverse with
    | [] => whole
    | fraction => whole ++ '.' :: fraction

/-- The text of a number. -/
def Binary64.text (d : Binary64) : String :=
  let digits :=
    if d.isZero then ['0']
    else
      let (digits, power) := d.shortestDecimal
      positional digits power
  String.ofList (if d.negative then '-' :: digits else digits)

end QueryPlanner
