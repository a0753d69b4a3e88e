import QueryPlanner.Text.Lines

/-!
# Where a text is broken

A text that ends in a line feed has as many lines as line feeds, and what comes before any of its
line feeds is broken in the same way whatever follows.  A carriage return ends no line; it is lost
right before a line feed.

Main statements: `length_lines`, `lines_append_lineFeed` and `lines_append`.
-/

namespace QueryPlanner.Text

/-! ## Texts without a line feed -/

/-- A text has no line feed in it. -/
def IsLine (s : String) : Prop := '\n' ∉ s.toList

instance (s : String) : Decidable (IsLine s) := inferInstanceAs (Decidable ('\n' ∉ s.toList))

@[simp] theorem isLine_append {a b : String} : IsLine (a ++ b) ↔ IsLine a ∧ IsLine b := by
  simp [IsLine]

theorem isLine_intercalate_iff {separator : String} (hseparator : IsLine separator)
    {items : List String} :
    IsLine (String.intercalate separator items) ↔ ∀ item ∈ items, IsLine item := by
  induction items with
  | nil => simp [IsLine]
  | cons first rest ih =>
      by_cases hrest : rest = []
      · simp [hrest]
      · rw [String.intercalate_cons_of_ne_nil hrest]
        simp [hseparator, ih]

/-! ## Lines of characters -/

theorem splitLines_lineFeed (rest : List Char) :
    splitLines ('\n' :: rest) = [] :: splitLines rest := by
  simp [splitLines]

/-- A carriage return before a line feed is lost. -/
theorem splitLines_return {rest : List Char} (h : rest.head? = some '\n') :
    splitLines ('\r' :: rest) = splitLines rest := by
  obtain ⟨tail, rfl⟩ := List.head?_eq_some_iff.1 h
  simp [splitLines]

/-- Any other character is put before the first line of what follows. -/
theorem splitLines_cons {c : Char} {rest line : List Char} {lines : List (List Char)}
    (hfeed : c ≠ '\n') (hreturn : ¬(c = '\r' ∧ rest.head? = some '\n'))
    (h : splitLines rest = line :: lines) : splitLines (c :: rest) = (c :: line) :: lines := by
  unfold splitLines
  split
  next => contradiction
  next => simp_all
  next => simp_all
  next => simp_all

/-- What comes before a line feed has its lines, one more than line feeds, whatever follows. -/
theorem exists_splitLines (a : List Char) :
    ∃ lines, lines.length = a.count '\n' + 1 ∧
      ∀ b, splitLines (a ++ '\n' :: b) = lines ++ splitLines b := by
  induction a with
  | nil => exact ⟨[[]], rfl, splitLines_lineFeed⟩
  | cons c a ih =>
      obtain ⟨lines, hlength, hlines⟩ := ih
      by_cases hfeed : c = '\n'
      · subst hfeed
        refine ⟨[] :: lines, by simp [hlength], fun b => ?_⟩
        rw [List.cons_append, splitLines_lineFeed, hlines, List.cons_append]
      · have hcount : (c :: a).count '\n' = a.count '\n' := by simp [hfeed]
        rw [hcount]
        have hhead (b : List Char) : (a ++ '\n' :: b).head? = (a ++ ['\n']).head? := by
          cases a <;> simp
        by_cases hreturn : c = '\r' ∧ (a ++ ['\n']).head? = some '\n'
        · obtain ⟨rfl, hnext⟩ := hreturn
          refine ⟨lines, hlength, fun b => ?_⟩
          rw [List.cons_append, splitLines_return ((hhead b).trans hnext), hlines]
        · cases lines with
          | nil => simp at hlength
          | cons line lines =>
              refine ⟨(c :: line) :: lines, by simpa using hlength, fun b => ?_⟩
              rw [List.cons_append, splitLines_cons hfeed (by rwa [hhead b]) (hlines b)]
              rfl

/-- Characters without a line feed are put before the first line of what follows. -/
theorem splitLines_append {a b line : List Char} {lines : List (List Char)} (ha : '\n' ∉ a)
    (hend : a.getLast? = some '\r' → b.head? ≠ some '\n') (h : splitLines b = line :: lines) :
    splitLines (a ++ b) = (a ++ line) :: lines := by
  induction a with
  | nil => exact h
  | cons c a ih =>
      have hfeed : c ≠ '\n' := fun hc => ha (hc ▸ List.mem_cons_self)
      have hrest : '\n' ∉ a := fun hmem => ha (List.mem_cons_of_mem c hmem)
      cases a with
      | nil =>
          refine splitLines_cons hfeed ?_ h
          rintro ⟨rfl, hnext⟩
          exact hend rfl hnext
      | cons d a =>
          refine splitLines_cons hfeed ?_ (ih hrest hend)
          rintro ⟨-, hnext⟩
          cases hnext
          exact hrest List.mem_cons_self

/-! ## Lines of texts -/

/-- A text that ends in a line feed has as many lines as line feeds. -/
theorem length_lines (s : String) : (lines (s ++ "\n")).length = s.toList.count '\n' + 1 := by
  obtain ⟨broken, hlength, hlines⟩ := exists_splitLines s.toList
  have hsplit := hlines []
  simp [lines, hsplit, hlength, splitLines]

theorem lines_append_lineFeed (s t : String) :
    lines (s ++ "\n" ++ t) = lines (s ++ "\n") ++ lines t := by
  obtain ⟨broken, -, hlines⟩ := exists_splitLines s.toList
  have hwhole := hlines t.toList
  have hfront := hlines []
  simp [lines, hwhole, hfront, splitLines]

theorem lines_join (items : List String) :
    lines (String.join (items.map (· ++ "\n"))) = items.flatMap fun s => lines (s ++ "\n") := by
  induction items with
  | nil => simp [lines, splitLines]
  | cons s items ih =>
      rw [List.map_cons, String.join_cons, lines_append_lineFeed, ih, List.flatMap_cons]

/-- A text without a line feed is put before the first line of what follows. -/
theorem lines_append {a b line : String} {more : List String} (ha : IsLine a)
    (hend : a.toList.getLast? = some '\r' → b.toList.head? ≠ some '\n')
    (h : lines b = line :: more) : lines (a ++ b) = (a ++ line) :: more := by
  obtain ⟨first, rest, hsplit, rfl, rfl⟩ := List.map_eq_cons_iff.1 h
  rw [lines, String.toList_append, splitLines_append ha hend hsplit, List.map_cons,
    String.ofList_append, String.ofList_toList]

end QueryPlanner.Text
