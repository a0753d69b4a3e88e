/-!
# Lines of a text

A line ends at a line feed, and a carriage return right before that line feed belongs to the end
of the line.  What follows the last line feed is a line unless it is empty.
-/

namespace QueryPlanner.Text

/-- The lines of a list of characters, without their ends. -/
def splitLines : List Char → List (List Char)
  | [] => []
  | '\n' :: rest => [] :: splitLines rest
  | '\r' :: '\n' :: rest => [] :: splitLines rest
  | c :: rest =>
      match splitLines rest with
      | [] => [[c]]
      | line :: lines => (c :: line) :: lines

/-- The lines of a text, without their ends. -/
def lines (s : String) : List String := (splitLines s.toList).map String.ofList

end QueryPlanner.Text
