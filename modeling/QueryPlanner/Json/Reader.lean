import QueryPlanner.Json.Token

/-!
# Reading JSON

A value is put together from its tokens one after the other, with the arrays and objects that are
still open in a list.  `parse?` keeps what the text says, `parseValue?` gives the value of a
document: no member twice, nothing unreadable, and at most 127 levels.
-/

namespace QueryPlanner

namespace Json

/-- An array or object that is still open; what it holds so far is listed last first. -/
inductive Frame where
  | array (before : List Json)
  /-- The name of the member whose value is being read comes last. -/
  | object (before : List (Option String × Json)) (name : Option String)

/-- What may come next, inside the open arrays and objects. -/
inductive Awaiting where
  | value (outer : List Frame)
  /-- Right after the start of an array. -/
  | itemOrEnd (outer : List Frame)
  /-- Right after the start of an object. -/
  | nameOrEnd (outer : List Frame)
  /-- After a comma in an object. -/
  | name (before : List (Option String × Json)) (outer : List Frame)
  | colon (before : List (Option String × Json)) (name : Option String) (outer : List Frame)
  /-- A value has been read; a separator, an end or nothing follows. -/
  | next (value : Json) (outer : List Frame)

/-- An object of members listed last first.  A name that denotes nothing makes it unreadable. -/
def closeObject (members : List (Option String × Json)) : Json :=
  match members.reverse.mapM fun (name, value) => name.map (·, value) with
  | some members => .object members
  | none => .unreadable

/-- The first token of a value. -/
def start (token : Token) (outer : List Frame) : Option Awaiting :=
  match token with
  | .arrayStart => some (.itemOrEnd outer)
  | .objectStart => some (.nameOrEnd outer)
  | .scalar value => some (.next value outer)
  | .text (some content) => some (.next (.string content) outer)
  | .text none => some (.next .unreadable outer)
  | _ => none

/-- One token further. -/
def step : Awaiting → Token → Option Awaiting
  | .value outer, token => start token outer
  | .itemOrEnd outer, .arrayEnd => some (.next (.array []) outer)
  | .itemOrEnd outer, token => start token (.array [] :: outer)
  | .nameOrEnd outer, .objectEnd => some (.next (.object []) outer)
  | .nameOrEnd outer, .text name => some (.colon [] name outer)
  | .name before outer, .text name => some (.colon before name outer)
  | .colon before name outer, .colon => some (.value (.object before name :: outer))
  | .next value (.array before :: outer), .comma =>
      some (.value (.array (value :: before) :: outer))
  | .next value (.array before :: outer), .arrayEnd =>
      some (.next (.array (value :: before).reverse) outer)
  | .next value (.object before name :: outer), .comma =>
      some (.name ((name, value) :: before) outer)
  | .next value (.object before name :: outer), .objectEnd =>
      some (.next (closeObject ((name, value) :: before)) outer)
  | _, _ => none

/-- The value that tokens spell out. -/
def ofTokens? (tokens : List Token) : Option Json :=
  match tokens.foldlM step (.value []) with
  | some (.next value []) => some value
  | _ => none

/-- The value a text spells out, as it is written. -/
def parse? (text : String) : Option Json :=
  (scan text.toList).bind ofTokens?

/-- The deepest nesting of a document. -/
def maxDepth : Nat := 127

/-- The value of a document. -/
def parseValue? (text : String) : Option Json := do
  let value ← parse? text
  if value.readable ∧ value.depth ≤ maxDepth then some value.lastWins else none

end Json

end QueryPlanner
