import QueryPlanner.Text.Hex

/-!
# Identifiers of sessions

A session goes by 16 random bytes in the log, written as groups of hexadecimal digits.  The version
of such identifiers, 4, and their variant stand at fixed places among the digits.
-/

namespace QueryPlanner

namespace SessionIdentifier

/-- The byte with its upper bits set to a mark: `keep` says how many values the lower bits have. -/
def mark (keep mark : Nat) (b : UInt8) : UInt8 := (mark * keep + b.toNat % keep).toUInt8

/-- The bytes with version and variant in their places. -/
def marked (bytes : List UInt8) : List UInt8 := (bytes.modify 6 (mark 16 4)).modify 8 (mark 64 2)

/-- Groups of digits with dashes between them, given the number of bytes of each group. -/
def groups : List Nat → List UInt8 → List String
  | [], _ => []
  | size :: rest, bytes =>
      String.ofList ((bytes.take size).flatMap Text.hexByte) :: groups rest (bytes.drop size)

/-- The identifier made from random bytes. -/
def ofBytes (bytes : List UInt8) : String :=
  String.intercalate "-" (groups [4, 2, 2, 2, 6] (marked bytes))

end SessionIdentifier

end QueryPlanner
