/-!
# Hexadecimal digits
-/

namespace QueryPlanner.Text

/-- The digit of a number below sixteen, small letters from ten on. -/
def hexChar (n : Nat) : Char :=
  if n < 10 then Char.ofNat ('0'.toNat + n) else Char.ofNat ('a'.toNat + (n - 10))

/-- The two digits of a byte. -/
def hexByte (b : UInt8) : List Char := [hexChar (b.toNat / 16), hexChar (b.toNat % 16)]

end QueryPlanner.Text
