import QueryPlanner.Collation.SortKey
import QueryPlanner.Text.Ascii
import QueryPlanner.Text.Lowercase
import QueryPlanner.Text.Utf8
import QueryPlanner.Value

/-!
# Collations

A collation orders texts and encodes them as sort keys whose bytes have the same order.  There are
two: one orders by code point and can recover a text from its sort key, the other disregards case
and cannot.  Columns refer to a collation by number, documents by name.
-/

namespace QueryPlanner

/-- The number by which a column refers to its collation. -/
abbrev CollationId := UInt32

/-- A way to order texts. -/
inductive Collation where
  /-- The order of code points. -/
  | ucsBinary
  /-- The order of lowercase forms. -/
  | enUsCi
  deriving DecidableEq

namespace Collation

def id : Collation → CollationId
  | .ucsBinary => 0
  | .enUsCi => 1

def name : Collation → String
  | .ucsBinary => "UCS_BINARY"
  | .enUsCi => "en_us_ci"

/-- The name of the ordering scheme behind a collation. -/
def scheme : Collation → String
  | .ucsBinary => "UCS_BINARY"
  | .enUsCi => "en_US_ci"

/-- Whether texts can be recovered from sort keys. -/
def isRecoverable : Collation → Bool
  | .ucsBinary => true
  | .enUsCi => false

def isCaseSensitive : Collation → Bool
  | .ucsBinary => true
  | .enUsCi => false

/-- A collation in messages: its name, and its scheme in parentheses. -/
def text (c : Collation) : String := c.name ++ "(" ++ c.scheme ++ ")"

/-! ## The registry -/

/-- Every collation, by number. -/
def registered : List Collation := [.ucsBinary, .enUsCi]

/-- The collation of texts that name none. -/
def standard : Collation := .ucsBinary

/-- The collation with a number. -/
def ofId (id : CollationId) : Except CollationError Collation :=
  match registered.find? (·.id == id) with
  | some c => .ok c
  | none => .error (.unknown (toString id.toNat))

/-- The collation with a name, in any case of its letters. -/
def ofName (name : String) : Except CollationError Collation :=
  match registered.find? fun c => Text.sameLetters c.name name with
  | some c => .ok c
  | none => .error (.unknown name)

/-- The collation of a column. -/
def ofColumn : Option CollationId → Except CollationError Collation
  | some id => ofId id
  | none => .ok standard

@[simp] theorem ofId_id (c : Collation) : ofId c.id = .ok c := by
  cases c <;> rfl

/-! ## Order -/

/-- What two texts have to share to be equal in the collation. -/
def fold : Collation → String → String
  | .ucsBinary, s => s
  | .enUsCi, s => Text.lowercase s

/-- The order of two texts. -/
def compare (c : Collation) (a b : String) : Ordering :=
  List.compareLex Ord.compare (Text.utf8 (c.fold a)) (Text.utf8 (c.fold b))

/-- The text of a value, `none` for `NULL`; other values are not ordered by a collation. -/
def collatable (c : Collation) (v : Value) : Except CollationError (Option String) :=
  match v with
  | .text s => .ok (some s)
  | v =>
      match v.dataType? with
      | none => .ok none
      | some type => .error (.notAText c.name type)

/-- The order of two values; `NULL` comes before every text. -/
def compareValues (c : Collation) (a b : Value) : Except CollationError Ordering := do
  match ← c.collatable a, ← c.collatable b with
  | some a, some b => return c.compare a b
  | none, none => return .eq
  | none, some _ => return .lt
  | some _, none => return .gt

/-! ## Sort keys -/

/-- The sort key of a text. -/
def sortKey (c : Collation) (s : String) : List UInt8 := SortKey.escape (Text.utf8 (c.fold s))

/-- The text whose sort key stands at `offset` in `bytes`. -/
def decodeSortKey (c : Collation) (bytes : List UInt8) (offset length : Nat) :
    Except CollationError String :=
  if c.isRecoverable then
    if offset + length ≤ bytes.length then
      match SortKey.unescape ((bytes.drop offset).take length) with
      | .error fault => .error (.malformedKey fault)
      | .ok raw =>
          match Text.ofUtf8? raw with
          | some s => .ok s
          | none => .error (.malformedKey .notUtf8)
    else .error (.malformedKey (.outside offset length bytes.length))
  else .error (.unsupported c.name "decode_sort_key_bytes")

theorem decodeSortKey_sortKey (s : String) :
    decodeSortKey .ucsBinary (sortKey .ucsBinary s) 0 (sortKey .ucsBinary s).length = .ok s := by
  simp [decodeSortKey, isRecoverable, sortKey, fold, SortKey.unescape_escape, Text.ofUtf8?_utf8]

end Collation

end QueryPlanner
