/-!
# Letters of ASCII

Names of columns, indexes, aliases and collations match when they differ at most in the case of
the letters `A` to `Z`.
-/

namespace QueryPlanner.Text

/-- The characters of a text with `A` to `Z` made small and every other one kept. -/
def asciiFold (s : String) : List Char := s.toList.map Char.toLower

/-- The text with `a` to `z` made capital and every other character kept. -/
def asciiUppercase (s : String) : String := String.ofList (s.toList.map Char.toUpper)

/-- Whether two texts differ at most in the case of ASCII letters. -/
def sameLetters (a b : String) : Bool := asciiFold a == asciiFold b

theorem sameLetters_iff {a b : String} : sameLetters a b = true ↔ asciiFold a = asciiFold b := by
  simp [sameLetters]

@[simp] theorem sameLetters_refl (a : String) : sameLetters a a = true := by
  simp [sameLetters]

theorem sameLetters_symm {a b : String} (h : sameLetters a b = true) :
    sameLetters b a = true :=
  sameLetters_iff.2 (sameLetters_iff.1 h).symm

theorem sameLetters_trans {a b c : String} (hab : sameLetters a b = true)
    (hbc : sameLetters b c = true) : sameLetters a c = true :=
  sameLetters_iff.2 ((sameLetters_iff.1 hab).trans (sameLetters_iff.1 hbc))

end QueryPlanner.Text
