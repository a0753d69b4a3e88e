/-!
# White space

The characters with the property White_Space, and texts made of nothing else.
-/

namespace QueryPlanner.Text

/-- Whether the character is white space: the blanks of ASCII, the line and paragraph separators
and the spaces of fixed width. -/
def isBlank (c : Char) : Bool :=
  (0x9 ≤ c.toNat && c.toNat ≤ 0xD) || c.toNat == 0x20 || c.toNat == 0x85 || c.toNat == 0xA0 ||
    c.toNat == 0x1680 || (0x2000 ≤ c.toNat && c.toNat ≤ 0x200A) || c.toNat == 0x2028 ||
    c.toNat == 0x2029 || c.toNat == 0x202F || c.toNat == 0x205F || c.toNat == 0x3000

/-- Whether nothing is left of a text once white space is cut off at both ends. -/
def isBlankText (s : String) : Bool := s.toList.all isBlank

end QueryPlanner.Text
