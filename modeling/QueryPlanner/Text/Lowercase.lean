import QueryPlanner.Text.CaseContext
import QueryPlanner.Text.LowercaseTable

/-!
# Small letters of a text

The full lowercase form of a text, independent of any language.  Schema, table and view names are
stored under it, and the case-insensitive collation orders texts by it.

Two characters are special: `İ` becomes `i` followed by a combining dot, and `Σ` becomes `ς` at
the end of a word and `σ` elsewhere.
-/

namespace QueryPlanner.Text

/-- Whether the nearest character that is not case-ignorable is a letter with case. -/
def nextIsCased (cs : List Char) : Bool :=
  match cs.dropWhile isCaseIgnorable with
  | [] => false
  | c :: _ => isCased c

/-- Whether a sigma ends a word: a letter with case comes before it and none after it.  The
characters before it are listed from the nearest one back. -/
def endsWord (before after : List Char) : Bool := nextIsCased before && !nextIsCased after

/-- The small form of a character that has one character as its small form. -/
def lowerSimple (c : Char) : Char :=
  if c.toNat < 0x80 then c.toLower else Char.ofNat (smallForm c.toNat)

/-- The small form of a character between the characters around it. -/
def lowerIn (before : List Char) (c : Char) (after : List Char) : List Char :=
  if c = 'Σ' then [if endsWord before after then 'ς' else 'σ']
  else if c = 'İ' then ['i', '\u0307']
  else [lowerSimple c]

/-- The small form of the remaining characters, given those already passed, nearest first. -/
def lowerFrom (before : List Char) : List Char → List Char
  | [] => []
  | c :: after => lowerIn before c after ++ lowerFrom (c :: before) after

/-- The lowercase form of a text. -/
def lowercase (s : String) : String := String.ofList (lowerFrom [] s.toList)

end QueryPlanner.Text
