import QueryPlanner.Collation.Basic

/-!
# Composite keys

A key is a string of bytes made of segments, each with a tag in front, and a cursor for reading
them back.  Tags and encodings are chosen so that the order of the bytes is the order of the
segments: `NULL` before integers before texts, integers by value, texts by their collation.

A decoding that fails after its tag has matched leaves the cursor behind the tag.
-/

namespace QueryPlanner

/-- One component of a composite key. -/
inductive Segment where
  | null
  | integer (value : Int64)
  | text (collation : Collation) (value : String)
  deriving DecidableEq

namespace SegmentKind

/-- The byte in front of a segment. -/
def tag : SegmentKind → UInt8
  | .null => 0x02
  | .integer => 0x10
  | .text => 0x20

/-- The kind of segment that a byte announces. -/
def ofTag? (b : UInt8) : Option SegmentKind :=
  [SegmentKind.null, .integer, .text].find? (·.tag == b)

@[simp] theorem ofTag?_tag (k : SegmentKind) : ofTag? k.tag = some k := by
  cases k <;> rfl

end SegmentKind

namespace Segment

def kind : Segment → SegmentKind
  | .null => .null
  | .integer _ => .integer
  | .text _ _ => .text

/-- The last eight digits of a number in base 256, the highest first. -/
def bigEndian (n : Nat) : List UInt8 :=
  [56, 48, 40, 32, 24, 16, 8, 0].map fun shift => (n >>> shift).toUInt8

/-- The number whose digits in base 256 are given, the highest first. -/
def ofBigEndian (digits : List UInt8) : Nat :=
  digits.foldl (fun n b => n * 256 + b.toNat) 0

/-- An integer in eight bytes, counted from the smallest one. -/
def encodeInteger (value : Int64) : List UInt8 := bigEndian (value.toInt - Int64.minValue.toInt).toNat

/-- The integer in eight bytes. -/
def decodeInteger (digits : List UInt8) : Int64 :=
  Int64.ofInt ((ofBigEndian digits : Int) + Int64.minValue.toInt)

/-- The bytes of a segment behind its tag. -/
def body : Segment → List UInt8
  | .null => []
  | .integer value => encodeInteger value
  | .text collation value => collation.sortKey value

/-- The bytes of a segment. -/
def bytes (s : Segment) : List UInt8 := s.kind.tag :: s.body

end Segment

/-- A composite key with a read cursor. -/
structure Key where
  bytes : List UInt8 := []
  cursor : Nat := 0
  deriving DecidableEq

namespace Key

/-- The key without segments. -/
def empty : Key := {}

/-- Encoded bytes, to be read from the start. -/
def ofBytes (bytes : List UInt8) : Key := { bytes }

/-- Moves the cursor back to the first segment. -/
def reset (k : Key) : Key := { k with cursor := 0 }

/-- Adds a segment at the end. -/
def append (k : Key) (s : Segment) : Key := { k with bytes := k.bytes ++ s.bytes }

/-- The kind of the segment at the cursor, `none` at the end of the key. -/
def peek (k : Key) : Except CollationError (Option SegmentKind) :=
  match k.bytes[k.cursor]? with
  | none => .ok none
  | some b =>
      match SegmentKind.ofTag? b with
      | some kind => .ok (some kind)
      | none => .error (.malformedKey (.unknownTag b k.cursor))

/-- Reads the tag of a segment that has to be of the given kind. -/
def readTag (k : Key) (expected : SegmentKind) : Except CollationError Key :=
  match k.bytes[k.cursor]? with
  | none => .error (.malformedKey (.endOfKey expected))
  | some b =>
      if b = expected.tag then .ok { k with cursor := k.cursor + 1 }
      else .error (.malformedKey (.otherSegment expected k.cursor))

/-- Reads a `NULL` segment. -/
def decodeNull (k : Key) : Except CollationError Unit × Key :=
  match k.readTag .null with
  | .error e => (.error e, k)
  | .ok k => (.ok (), k)

/-- Reads an integer segment. -/
def decodeInteger (k : Key) : Except CollationError Int64 × Key :=
  match k.readTag .integer with
  | .error e => (.error e, k)
  | .ok k =>
      let digits := (k.bytes.drop k.cursor).take 8
      if digits.length = 8 then
        (.ok (Segment.decodeInteger digits), { k with cursor := k.cursor + 8 })
      else (.error (.malformedKey .truncatedInteger), k)

/-- Reads a text segment of a collation.  A collation that does not recover texts reads nothing. -/
def decodeText (k : Key) (c : Collation) : Except CollationError String × Key :=
  if c.isRecoverable then
    match k.readTag .text with
    | .error e => (.error e, k)
    | .ok k =>
        let rest := k.bytes.drop k.cursor
        let length := (rest.takeWhile (· != 0)).length + 1
        if length ≤ rest.length then
          (c.decodeSortKey (rest.take length) 0 length, { k with cursor := k.cursor + length })
        else (.error (.malformedKey .unterminatedText), k)
  else (.error (.unsupported c.name "decode"), k)

@[simp] theorem bytes_append (k : Key) (s : Segment) :
    (k.append s).bytes = k.bytes ++ s.bytes := rfl

@[simp] theorem cursor_append (k : Key) (s : Segment) : (k.append s).cursor = k.cursor := rfl

end Key

end QueryPlanner
