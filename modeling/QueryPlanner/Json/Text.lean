import QueryPlanner.Json.Basic
import QueryPlanner.Number.Shortest
import QueryPlanner.Text.Hex

/-!
# Writing JSON

The compact text of a value: no blanks, members in the order given.
-/

namespace QueryPlanner

namespace Json

/-- How a character is written between quotes. -/
def quoteChar (c : Char) : List Char :=
  match c with
  | '"' => ['\\', '"']
  | '\\' => ['\\', '\\']
  | '\x08' => ['\\', 'b']
  | '\x0c' => ['\\', 'f']
  | '\n' => ['\\', 'n']
  | '\r' => ['\\', 'r']
  | '\t' => ['\\', 't']
  | c =>
      if c.toNat < 0x20 then
        ['\\', 'u', '0', '0'] ++ Text.hexByte c.toNat.toUInt8
      else [c]

/-- A text between quotes. -/
def quote (s : String) : String :=
  String.ofList ('"' :: s.toList.flatMap quoteChar ++ ['"'])

mutual

/-- The compact text of a value. -/
def text : Json → String
  | .null | .unreadable => "null"
  | .bool value => if value then "true" else "false"
  | .integer value => toString value
  | .double value => value.text
  | .string value => quote value
  | .array items => "[" ++ String.intercalate "," (textItems items) ++ "]"
  | .object members => "\x7b" ++ String.intercalate "," (textMembers members) ++ "\x7d"

def textItems : List Json → List String
  | [] => []
  | item :: rest => item.text :: textItems rest

def textMembers : List (String × Json) → List String
  | [] => []
  | (name, value) :: rest => (quote name ++ ":" ++ value.text) :: textMembers rest

end

end Json

end QueryPlanner
