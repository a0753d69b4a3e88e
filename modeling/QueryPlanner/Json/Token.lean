import QueryPlanner.Json.Basic
import QueryPlanner.Number.Decimal

/-!
# Tokens of JSON

Splits a text into brackets, separators and scalars.  Whether a text or a number denotes a value
is kept apart from whether it is well-formed.
-/

namespace QueryPlanner

namespace Json

/-- A token of the grammar. -/
inductive Token where
  | arrayStart
  | arrayEnd
  | objectStart
  | objectEnd
  | colon
  | comma
  /-- `null`, `true`, `false` or a number. -/
  | scalar (value : Json)
  /-- A quoted text; it has no content when half of a surrogate pair stands alone in it. -/
  | text (content : Option String)

/-- The four blanks of the grammar. -/
def isSpace (c : Char) : Bool := c == ' ' || c == '\n' || c == '\t' || c == '\r'

/-- The bracket or separator that a character is. -/
def punctuation? : Char → Option Token
  | '[' => some .arrayStart
  | ']' => some .arrayEnd
  | '\x7b' => some .objectStart
  | '\x7d' => some .objectEnd
  | ':' => some .colon
  | ',' => some .comma
  | _ => none

/-! ## Quoted texts -/

/-- A part of a quoted text. -/
inductive Piece where
  | char (c : Char)
  /-- A number given by `\u` and four digits. -/
  | unit (code : Nat)

/-- The value of a hexadecimal digit. -/
def hexDigit? (c : Char) : Option Nat :=
  if '0' ≤ c ∧ c ≤ '9' then some (c.toNat - '0'.toNat)
  else if 'a' ≤ c ∧ c ≤ 'f' then some (c.toNat - 'a'.toNat + 10)
  else if 'A' ≤ c ∧ c ≤ 'F' then some (c.toNat - 'A'.toNat + 10)
  else none

/-- The number written by hexadecimal digits. -/
def hexCode? (digits : List Char) : Option Nat :=
  digits.foldlM (fun code c => (hexDigit? c).map (16 * code + ·)) 0

/-- The character that a backslash and a letter stand for. -/
def escape? : Char → Option Char
  | '"' => some '"'
  | '\\' => some '\\'
  | '/' => some '/'
  | 'b' => some '\x08'
  | 'f' => some '\x0c'
  | 'n' => some '\n'
  | 'r' => some '\r'
  | 't' => some '\t'
  | _ => none

/-- The parts of a quoted text up to its closing quote, and what follows the quote. -/
def scanText : List Char → Option (List Piece × List Char)
  | [] => none
  | '"' :: rest => some ([], rest)
  | '\\' :: 'u' :: a :: b :: c :: d :: rest =>
      match hexCode? [a, b, c, d], scanText rest with
      | some code, some (pieces, after) => some (.unit code :: pieces, after)
      | _, _ => none
  | '\\' :: letter :: rest =>
      match escape? letter, scanText rest with
      | some c, some (pieces, after) => some (.char c :: pieces, after)
      | _, _ => none
  | c :: rest =>
      if c.toNat < 0x20 ∨ c = '\\' then none
      else
        match scanText rest with
        | some (pieces, after) => some (.char c :: pieces, after)
        | none => none

theorem length_lt_of_scanText {cs : List Char} {pieces : List Piece} {after : List Char}
    (h : scanText cs = some (pieces, after)) : after.length < cs.length := by
  fun_induction scanText cs generalizing pieces after <;> simp_all
  all_goals first
    | done
    | (obtain ⟨-, rfl⟩ := h; omega)

/-- The characters of a quoted text; a pair of surrogates makes one character, and half of a pair
none. -/
def assemble : List Piece → Option (List Char)
  | [] => some []
  | .char c :: rest => (assemble rest).map (c :: ·)
  | .unit high :: .unit low :: rest =>
      if 0xD800 ≤ high ∧ high < 0xDC00 ∧ 0xDC00 ≤ low ∧ low < 0xE000 then
        (assemble rest).map
          (Char.ofNat (0x10000 + (high - 0xD800) * 0x400 + (low - 0xDC00)) :: ·)
      else if 0xD800 ≤ high ∧ high < 0xE000 then none
      else (assemble (.unit low :: rest)).map (Char.ofNat high :: ·)
  | .unit code :: rest =>
      if 0xD800 ≤ code ∧ code < 0xE000 then none
      else (assemble rest).map (Char.ofNat code :: ·)

/-! ## Numbers -/

/-- The characters that numbers are made of. -/
def isNumeric (c : Char) : Bool :=
  c.isDigit || c == '-' || c == '+' || c == '.' || c == 'e' || c == 'E'

/-- The value of a decimal digit. -/
def digitValue (c : Char) : Nat := c.toNat - '0'.toNat

/-- The number written by decimal digits. -/
def ofDigits (digits : List Char) : Nat := digits.foldl (fun n c => 10 * n + digitValue c) 0

/-- Splits a non-empty run of digits off. -/
def digits? (cs : List Char) : Option (List Char × List Char) :=
  match cs.takeWhile Char.isDigit with
  | [] => none
  | digits => some (digits, cs.dropWhile Char.isDigit)

/-- The digits behind a point, if there is one. -/
def fraction? : List Char → Option (List Char × List Char)
  | '.' :: rest => digits? rest
  | rest => some ([], rest)

/-- The power of ten behind an `e`, if there is one. -/
def exponent? : List Char → Option (Option Int × List Char)
  | 'e' :: rest | 'E' :: rest =>
      let (negative, body) := match rest with
        | '-' :: body => (true, body)
        | '+' :: body => (false, body)
        | body => (false, body)
      (digits? body).map fun (digits, after) =>
        let size : Int := ofDigits digits
        (some (if negative then -size else size), after)
  | rest => some (none, rest)

/-- Whether an integer fits 64 bits, with or without a sign. -/
def fitsWord (n : Int) : Bool := Int64.minValue.toInt ≤ n && n < UInt64.size

/-- The number a lexeme denotes, `unreadable` when it is out of range, and `none` when the lexeme
is no number.  A sign on zero is kept, so `-0` is not an integer. -/
def number? (lexeme : List Char) : Option Json := do
  let (negative, body) := match lexeme with
    | '-' :: body => (true, body)
    | body => (false, body)
  let (whole, rest) ← digits? body
  if whole.head? = some '0' ∧ 1 < whole.length then none
  let (fraction, rest) ← fraction? rest
  let (power, rest) ← exponent? rest
  if ¬rest.isEmpty then none
  let digits := ofDigits whole
  let signed : Int := if negative then -digits else digits
  if fraction.isEmpty ∧ power.isNone ∧ fitsWord signed ∧ ¬(negative ∧ digits = 0) then
    some (.integer signed)
  else
    let decimal :=
      Decimal.ofDigits (whole.map digitValue) (fraction.map digitValue) (power.getD 0)
    match decimal.toBinary64? negative with
    | some value => some (.double value)
    | none => some .unreadable

/-! ## The whole text -/

/-- The literal a word denotes. -/
def literal? : List Char → Option Json
  | ['n', 'u', 'l', 'l'] => some .null
  | ['t', 'r', 'u', 'e'] => some (.bool true)
  | ['f', 'a', 'l', 's', 'e'] => some (.bool false)
  | _ => none

private theorem length_dropWhile_le (p : Char → Bool) (cs : List Char) :
    (cs.dropWhile p).length ≤ cs.length :=
  (List.dropWhile_suffix p).length_le

/-- The tokens of a text. -/
def scan : List Char → Option (List Token)
  | [] => some []
  | c :: rest =>
      if isSpace c then scan rest
      else
        match punctuation? c with
        | some token => (scan rest).map (token :: ·)
        | none =>
            if c = '"' then
              match h : scanText rest with
              | some (pieces, after) =>
                  have := length_lt_of_scanText h
                  (scan after).map (.text ((assemble pieces).map String.ofList) :: ·)
              | none => none
            else if isNumeric c then
              have := length_dropWhile_le isNumeric rest
              match number? (c :: rest.takeWhile isNumeric) with
              | some value => (scan (rest.dropWhile isNumeric)).map (.scalar value :: ·)
              | none => none
            else
              have := length_dropWhile_le Char.isAlpha rest
              match literal? (c :: rest.takeWhile Char.isAlpha) with
              | some value => (scan (rest.dropWhile Char.isAlpha)).map (.scalar value :: ·)
              | none => none
termination_by cs => cs.length

end Json

end QueryPlanner
