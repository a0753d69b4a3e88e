import QueryPlanner.DataType
import QueryPlanner.Text.Hex

/-!
# Errors of collations and keys
-/

namespace QueryPlanner

/-- The kinds of segments in a composite key. -/
inductive SegmentKind where
  | null
  | integer
  | text
  deriving DecidableEq

namespace SegmentKind

/-- The name of a kind in messages. -/
def name : SegmentKind → String
  | .null => "null"
  | .integer => "integer"
  | .text => "string"

end SegmentKind

/-- Why the bytes of a key do not decode. -/
inductive KeyFault where
  /-- A terminator before the end of a sort key. -/
  | innerTerminator
  /-- An escape byte without one of its two codes behind it. -/
  | invalidEscape
  | unknownTag (tag : UInt8) (offset : Nat)
  /-- Another segment stands where the expected one should start. -/
  | otherSegment (expected : SegmentKind) (offset : Nat)
  | endOfKey (expected : SegmentKind)
  | truncatedInteger
  | unterminatedText
  /-- A range that does not lie within the bytes. -/
  | outside (offset length size : Nat)
  | notUtf8
  deriving DecidableEq

namespace KeyFault

/-- The wording of a fault. -/
def message : KeyFault → String
  | .innerTerminator => "terminator inside sort key"
  | .invalidEscape => "invalid escape sequence"
  | .unknownTag tag offset =>
      "unknown segment tag 0x" ++ String.ofList (Text.hexByte tag) ++ " at offset " ++
        toString offset
  | .otherSegment expected offset =>
      "expected " ++ expected.name ++ " segment at offset " ++ toString offset
  | .endOfKey expected => "expected " ++ expected.name ++ " segment, found end of key"
  | .truncatedInteger => "truncated integer segment"
  | .unterminatedText => "unterminated string segment"
  | .outside offset length size =>
      "range " ++ toString offset ++ "+" ++ toString length ++ " outside " ++ toString size ++
        " key bytes"
  | .notUtf8 => "invalid utf-8 sequence"

end KeyFault

/-- Why a collation cannot do what is asked. -/
inductive CollationError where
  /-- The collation does not recover texts from its sort keys. -/
  | unsupported (collation operation : String)
  /-- No collation has this name or number. -/
  | unknown (name : String)
  | malformedKey (fault : KeyFault)
  /-- A value that is neither a text nor `NULL`. -/
  | notAText (collation : String) (type : DataType)
  deriving DecidableEq

namespace CollationError

/-- The wording of an error. -/
def message : CollationError → String
  | .unsupported collation operation =>
      collation ++ " does not support " ++ operation ++ ": sort keys are not recoverable"
  | .unknown name => "Unknown collation '" ++ name ++ "'"
  | .malformedKey fault => "Malformed key: " ++ fault.message
  | .notAText collation type => collation ++ " cannot order a " ++ type.name ++ " value"

end CollationError

end QueryPlanner
