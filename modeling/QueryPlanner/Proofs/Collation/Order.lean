import QueryPlanner.Proofs.Text.CodePoints

/-!
# The orders of collations

A collation compares texts by the UTF-8 bytes of what it makes of them.  The binary one makes nothing
of them, so it has the order of code points.  The bytes of sort keys are in the same order as the
texts, whatever characters these hold: escapes keep the order and the terminator puts a text in front
of its extensions.  Among values, `NULL` comes before every text, and other values have no place.

Main statement: `collations_order`.
-/

namespace QueryPlanner

namespace Value

/-- A text as a value, or `NULL`. -/
def ofText? : Option String → Value
  | none => .null
  | some s => .text s

/-- Whether a value is a text or `NULL`. -/
def IsCollated (v : Value) : Prop := ∃ s, v = ofText? s

theorem isCollated_null : IsCollated .null := ⟨none, rfl⟩

theorem isCollated_text (s : String) : IsCollated (.text s) := ⟨some s, rfl⟩

end Value

namespace Collation

variable {c : Collation} {v w : Value}

/-! ## Texts -/

theorem compare_ucsBinary (a b : String) :
    ucsBinary.compare a b =
      List.compareLex Ord.compare (Text.codePoints a) (Text.codePoints b) :=
  Text.compareLex_utf8 a b

/-- The bytes of sort keys are in the order of the texts. -/
theorem compareLex_sortKey (c : Collation) (a b : String) :
    List.compareLex Ord.compare (c.sortKey a) (c.sortKey b) = c.compare a b := by
  have hsettles := SortKey.settles_escape (Text.utf8 (c.fold a)) (Text.utf8 (c.fold b)) [] []
  rw [List.append_nil, List.append_nil, List.compareLex_nil_nil, Ordering.then_eq] at hsettles
  exact hsettles

/-- The order of texts is a total preorder. -/
instance transCmp_compare : Std.TransCmp c.compare :=
  have hbytes : Std.TransCmp (List.compareLex (Ord.compare : UInt8 → UInt8 → Ordering)) :=
    inferInstance
  { eq_swap := hbytes.eq_swap
    isLE_trans := hbytes.isLE_trans }

/-! ## Values -/

/-- The order of texts with nothing in front of them. -/
def compareTexts (c : Collation) : Option String → Option String → Ordering
  | none, none => .eq
  | none, some _ => .lt
  | some _, none => .gt
  | some a, some b => c.compare a b

instance transCmp_compareTexts : Std.TransCmp c.compareTexts where
  eq_swap {a b} := by
    cases a <;> cases b
    case some.some => exact transCmp_compare.eq_swap
    all_goals rfl
  isLE_trans {a b d} hab hbd := by
    cases a <;> cases b <;> cases d
    case some.some.some => exact transCmp_compare.isLE_trans hab hbd
    case none.none.none | none.none.some | none.some.none | none.some.some => rfl
    case some.none.none | some.none.some => cases hab
    case some.some.none => cases hbd

theorem collatable_ofText? (s : Option String) : c.collatable (.ofText? s) = .ok s := by
  cases s <;> rfl

theorem exists_collatable_eq_error (h : ¬v.IsCollated) : ∃ e, c.collatable v = .error e := by
  cases v with
  | null => exact absurd Value.isCollated_null h
  | text s => exact absurd (Value.isCollated_text s) h
  | boolean b => exact ⟨_, rfl⟩
  | integer n => exact ⟨_, rfl⟩
  | double x => exact ⟨_, rfl⟩

theorem compareValues_ofText? (a b : Option String) :
    c.compareValues (.ofText? a) (.ofText? b) = .ok (c.compareTexts a b) := by
  unfold compareValues
  rw [collatable_ofText?, collatable_ofText?]
  cases a <;> cases b <;> rfl

/-- Values that are neither texts nor `NULL` are not compared. -/
theorem exists_compareValues_eq_error_iff :
    (∃ e, c.compareValues v w = .error e) ↔ ¬v.IsCollated ∨ ¬w.IsCollated := by
  constructor
  · rintro ⟨e, he⟩
    by_contra hboth
    push Not at hboth
    obtain ⟨⟨a, rfl⟩, b, rfl⟩ := hboth
    rw [compareValues_ofText?] at he
    cases he
  · intro hother
    unfold compareValues
    by_cases hv : v.IsCollated
    · obtain ⟨a, rfl⟩ := hv
      have hw : ¬w.IsCollated := hother.resolve_left (not_not.2 ⟨a, rfl⟩)
      obtain ⟨e, he⟩ := exists_collatable_eq_error (c := c) hw
      exact ⟨e, by rw [collatable_ofText?, he]; rfl⟩
    · obtain ⟨e, he⟩ := exists_collatable_eq_error (c := c) hv
      exact ⟨e, by rw [he]; rfl⟩

/-- The binary collation has the order of code points.  The order of each collation is a total
preorder of texts, and that of its sort keys; the order of values extends it with `NULL` in front,
and only values that are neither texts nor `NULL` are refused. -/
theorem collations_order :
    (∀ a b, ucsBinary.compare a b =
      List.compareLex Ord.compare (Text.codePoints a) (Text.codePoints b)) ∧
    ∀ c : Collation,
      (∀ a b, List.compareLex Ord.compare (c.sortKey a) (c.sortKey b) = c.compare a b) ∧
      Std.TransCmp c.compare ∧ Std.TransCmp c.compareTexts ∧
      (∀ a b, c.compareValues (.ofText? a) (.ofText? b) = .ok (c.compareTexts a b)) ∧
      ∀ v w, (∃ e, c.compareValues v w = .error e) ↔ ¬v.IsCollated ∨ ¬w.IsCollated :=
  ⟨compare_ucsBinary, fun c => ⟨c.compareLex_sortKey, inferInstance, inferInstance,
    compareValues_ofText?, fun _ _ => exists_compareValues_eq_error_iff⟩⟩

end Collation

end QueryPlanner
