import QueryPlanner.Proofs.AccessPath.Placeholders
import QueryPlanner.Proofs.Number.Nearest

/-!
# When a range is lexicographic

A range with two ends stands for the entries that agree with both of them on every bound field but
the last, unless it is lexicographic.  It is not lexicographic if the ends are known to agree on
these fields: they hold the same placeholder there, or literals that denote the same value.

Integers and floating-point numbers are compared after rounding the integer.  So an integer of more
than 53 binary digits is also taken to agree with the nearest floating-point number when this is
another number, and then the range is not lexicographic although its ends differ
(`lexicographic_roundedConjuncts`).

Main statement: `lexicographic_eq_false_iff`.
-/

namespace QueryPlanner

/-! ## Literals -/

namespace Value

/-- The exact number that a literal denotes. -/
def number? : Value → Option ℚ
  | .integer n => some n.toInt
  | .double d => some d.toRat
  | _ => none

/-- Two literals denote the same value of an index field. -/
inductive Same (field : IndexField) : Value → Value → Prop where
  | boolean (b : Bool) : Same field (.boolean b) (.boolean b)
  | number {a b : Value} (x : ℚ) (left : a.number? = some x) (right : b.number? = some x) :
      Same field a b
  | text {a b : String} (c : Collation) (registered : Collation.ofColumn field.collation = .ok c)
      (equal : c.compare a b = .eq) : Same field (.text a) (.text b)

/-- An integer and the nearest floating-point number, which is another number. -/
inductive RoundsTo : Value → Value → Prop where
  | nearest {n : Int64} {d : Binary64} (long : 2 ^ 53 < |n.toInt|) (nearest : d.IsNearest n.toInt)
      (differs : d.toRat ≠ n.toInt) : RoundsTo (.integer n) (.double d)

end Value

namespace BoundValue

variable {field : IndexField} {a b : Value}

theorem abs_toInt_le (n : Int64) : |n.toInt| ≤ 2 ^ 63 := by
  have hlower := n.minValue_le_toInt
  have hupper := n.toInt_le
  rw [Int64.toInt_minValue] at hlower
  rw [Int64.toInt_maxValue] at hupper
  rw [abs_le]
  constructor <;> omega

/-- An integer and a floating-point number are taken for one value if this is the number nearest to
the integer. -/
theorem sameLiteral_integer_double_iff (field : IndexField) {n : Int64} {d : Binary64} :
    sameLiteral field (.integer n) (.double d) ↔ d.IsNearest n.toInt := by
  obtain ⟨e, he⟩ := Binary64.exists_ofInt? (abs_toInt_le n)
  unfold sameLiteral
  dsimp only
  rw [he]
  exact Binary64.sameNumber_ofInt?_iff he

/-- The number nearest to an integer is the integer, unless this is too long. -/
theorem isNearest_toInt_iff {n : Int64} {d : Binary64} :
    d.IsNearest n.toInt ↔
      d.toRat = n.toInt ∨ Value.RoundsTo (.integer n) (.double d) := by
  constructor
  · intro h
    by_cases hsame : d.toRat = n.toInt
    · exact .inl hsame
    · refine .inr (.nearest ?_ h hsame)
      by_contra hshort
      obtain ⟨e, he⟩ := Binary64.exists_ofInt? (abs_toInt_le n)
      refine hsame ?_
      rw [Binary64.toRat_eq_of_isNearest he h, Binary64.toRat_of_ofInt? he (not_lt.1 hshort)]
  · rintro (h | ⟨-, h, -⟩)
    · exact Binary64.isNearest_of_eq h
    · exact h

theorem sameLiteral_mixed_iff (field : IndexField) (n : Int64) (d : Binary64) :
    sameLiteral field (.integer n) (.double d) ↔
      d.toRat = n.toInt ∨ Value.RoundsTo (.integer n) (.double d) :=
  (sameLiteral_integer_double_iff field).trans isNearest_toInt_iff

theorem sameLiteral_text_iff {s t : String} :
    sameLiteral field (.text s) (.text t) ↔
      ∃ c, Collation.ofColumn field.collation = .ok c ∧ c.compare s t = .eq := by
  unfold sameLiteral
  dsimp only
  cases Collation.ofColumn field.collation with
  | ok c => simp
  | error e => simp

theorem sameLiteral_of_same (h : a.Same field b) : sameLiteral field a b := by
  cases h with
  | boolean p => exact beq_self_eq_true (Value.boolean p)
  | number x left right =>
      cases a with
      | integer m =>
          cases b with
          | integer n =>
              have hvalue : ((m.toInt : ℚ)) = n.toInt := Option.some.inj (left.trans right.symm)
              obtain rfl : m = n := Int64.toInt_inj.1 (by exact_mod_cast hvalue)
              exact beq_self_eq_true (Value.integer m)
          | double d =>
              exact (sameLiteral_mixed_iff field m d).2
                (.inl (Option.some.inj (right.trans left.symm)))
          | _ => cases right
      | double c =>
          cases b with
          | integer n =>
              exact (sameLiteral_mixed_iff field n c).2
                (.inl (Option.some.inj (left.trans right.symm)))
          | double d =>
              exact Binary64.sameNumber_iff.2 (Option.some.inj (left.trans right.symm))
          | _ => cases right
      | _ => cases left
  | text c registered equal => exact sameLiteral_text_iff.2 ⟨c, registered, equal⟩

/-- Literals are taken for one value if they denote one, or if one of them is rounded to the
other. -/
theorem sameLiteral_iff (ha : a ≠ .null) :
    sameLiteral field a b ↔ a.Same field b ∨ a.RoundsTo b ∨ b.RoundsTo a := by
  constructor
  · intro h
    cases a with
    | null => exact absurd rfl ha
    | boolean p =>
        cases b with
        | boolean q =>
            cases eq_of_beq h
            exact .inl (.boolean p)
        | _ => cases eq_of_beq h
    | integer n =>
        cases b with
        | integer m =>
            cases eq_of_beq h
            exact .inl (.number _ rfl rfl)
        | double d =>
            rcases (sameLiteral_mixed_iff field n d).1 h with hvalue | hrounds
            · exact .inl (.number _ rfl (congrArg some hvalue))
            · exact .inr (.inl hrounds)
        | _ => cases eq_of_beq h
    | double d =>
        cases b with
        | integer n =>
            rcases (sameLiteral_mixed_iff field n d).1 h with hvalue | hrounds
            · exact .inl (.number _ rfl (congrArg some hvalue.symm))
            · exact .inr (.inr hrounds)
        | double e =>
            exact .inl (.number _ rfl (congrArg some (Binary64.sameNumber_iff.1 h).symm))
        | _ => cases eq_of_beq h
    | text s =>
        cases b with
        | text t =>
            obtain ⟨c, hc, hequal⟩ := sameLiteral_text_iff.1 h
            exact .inl (.text c hc hequal)
        | _ => cases eq_of_beq h
  · rintro (h | h | h)
    · exact sameLiteral_of_same h
    · obtain ⟨long, nearest, differs⟩ := h
      exact (sameLiteral_integer_double_iff field).2 nearest
    · obtain ⟨long, nearest, differs⟩ := h
      exact (sameLiteral_integer_double_iff field).2 nearest

/-- Two bounds agree on a field in every execution. -/
inductive Agrees (field : IndexField) : BoundValue → BoundValue → Prop where
  | parameter (index : UInt64) : Agrees field (.parameter index) (.parameter index)
  | literal {a b : Value} (same : a.Same field b) : Agrees field (.literal a) (.literal b)

/-- Two bounds are literals one of which is an integer and the other one the number that it is
rounded to. -/
inductive Rounded : BoundValue → BoundValue → Prop where
  | left {a b : Value} (rounds : a.RoundsTo b) : Rounded (.literal a) (.literal b)
  | right {a b : Value} (rounds : b.RoundsTo a) : Rounded (.literal a) (.literal b)

theorem provablyEqual_iff {a b : BoundValue} (ha : a ≠ .literal .null) :
    provablyEqual field a b ↔ a.Agrees field b ∨ a.Rounded b := by
  constructor
  · intro h
    cases a with
    | parameter i =>
        cases b with
        | parameter j =>
            cases eq_of_beq h
            exact .inl (.parameter i)
        | literal b => cases h
    | literal a =>
        cases b with
        | parameter j => cases h
        | literal b =>
            rcases (sameLiteral_iff fun hnull => ha (congrArg literal hnull)).1 h with h | h | h
            · exact .inl (.literal h)
            · exact .inr (.left h)
            · exact .inr (.right h)
  · rintro (h | h)
    · cases h with
      | parameter index => exact beq_self_eq_true index
      | literal same => exact sameLiteral_of_same same
    · have hrounded {c d : Value} (hrounds : c.RoundsTo d) :
          sameLiteral field c d ∧ sameLiteral field d c := by
        obtain ⟨-, nearest, -⟩ := hrounds
        have hsame := (sameLiteral_integer_double_iff field).2 nearest
        exact ⟨hsame, hsame⟩
      cases h with
      | left rounds => exact (hrounded rounds).1
      | right rounds => exact (hrounded rounds).2

end BoundValue

/-! ## Bounds are never `NULL` -/

namespace SearchArgument

variable {source : Nat}

theorem Restricts.ne_null {a : SearchArgument} {op : BinaryOp} {left right : BoundExpr}
    (h : a.Restricts source op left right) : ∀ b ∈ a.values, b ≠ .literal .null := by
  obtain ⟨positions, values, -, -, hlength, hvalues, hfields⟩ := h.operands
  have hsnd : a.values = a.fields.map Prod.snd := by
    cases a with
    | column => rfl
    | row p restriction vs => exact (List.map_snd_zip (Nat.le_of_eq h.even.symm)).symm
  rw [hsnd, hfields, List.map_snd_zip (Nat.le_of_eq hlength.symm)]
  exact hvalues

theorem ne_null_of_mem_ofConjunct {a : SearchArgument} {c : BoundExpr}
    (h : a ∈ ofConjunct source c) : ∀ b ∈ a.values, b ≠ .literal .null := by
  unfold ofConjunct at h
  split at h
  next => exact (restricts_of_ofComparison? (Option.mem_toList.1 h)).elim (·.ne_null) (·.ne_null)
  next => exact (restricts_of_mem_ofBetween h).elim (·.ne_null) (·.ne_null)
  next => cases h

end SearchArgument

/-! ## Ranges -/

namespace KeyRange

/-- Whether a range with two ends is lexicographic is settled by its ends. -/
def IsSettled (r : KeyRange) : Prop :=
  ∀ lo hi, r.lo = some lo → r.hi = some hi →
    r.lexicographic = (List.range (r.boundColumns - 1)).any fun p => !r.isFixed lo.bound hi.bound p

theorem isSettled_settle (r : KeyRange) : r.settle.IsSettled := by
  intro lo hi hlo hhi
  rw [lo_settle] at hlo
  rw [hi_settle] at hhi
  unfold settle
  rw [hlo, hhi]
  rfl

theorem isFixed_iff {r : KeyRange} {lo hi : IndexBound} {p : Nat}
    (hnull : ∀ b ∈ lo.values, b ≠ .literal .null) :
    r.isFixed lo hi p ↔ ∃ field a b, r.index.fields[p]? = some field ∧ lo.values[p]? = some a ∧
      hi.values[p]? = some b ∧ (a.Agrees field b ∨ a.Rounded b) := by
  unfold isFixed
  constructor
  · intro h
    split at h
    next field a b hfield ha hb =>
      have hagree := (BoundValue.provablyEqual_iff (hnull a (List.mem_of_getElem? ha))).1 h
      exact ⟨field, a, b, hfield, ha, hb, hagree⟩
    next => cases h
  · rintro ⟨field, a, b, hfield, ha, hb, hagree⟩
    rw [hfield, ha, hb]
    exact (BoundValue.provablyEqual_iff (hnull a (List.mem_of_getElem? ha))).2 hagree

end KeyRange

namespace Candidate

variable {arguments : List SearchArgument} {index : Index} {c : Candidate}

theorem isSettled_of_columns? (h : columns? arguments index = some c) : c.range.IsSettled := by
  unfold columns? at h
  dsimp only at h
  split at h
  next =>
    split at h
    next => cases h
    next =>
      cases h
      exact KeyRange.isSettled_settle _
  next =>
    cases h
    exact KeyRange.isSettled_settle _

theorem isSettled_of_row? {row : RowInterval} (h : row? index row = some c) :
    c.range.IsSettled := by
  unfold row? at h
  dsimp only at h
  split at h
  next => cases h
  next =>
    split at h
    next => cases h
    next =>
      split at h
      next hone =>
        cases h
        intro lo hi hlo hhi
        obtain ⟨lower, hlower, -⟩ := Option.map_eq_some_iff.1 hlo
        obtain ⟨upper, hupper, -⟩ := Option.map_eq_some_iff.1 hhi
        simp [hlower, hupper] at hone
      next =>
        cases h
        exact KeyRange.isSettled_settle _

theorem isSettled_of_mem_allOn (h : c ∈ allOn arguments index) : c.range.IsSettled := by
  rcases List.mem_append.1 h with h | h
  · exact isSettled_of_columns? (Option.mem_toList.1 h)
  · obtain ⟨row, -, hc⟩ := List.mem_filterMap.1 h
    exact isSettled_of_row? hc

end Candidate

/-- A chosen range with two ends is not lexicographic just if on each bound field but the last its
ends hold the same placeholder, literals that denote the same value of the field, or an integer and
the other number that it is rounded to. -/
theorem lexicographic_eq_false_iff {t : Table} {source : Nat} {conjuncts : List BoundExpr}
    {r : KeyRange} (h : chooseRange t source conjuncts = .ok (some r)) {lo hi : RangeEnd}
    (hlo : r.lo = some lo) (hhi : r.hi = some hi) :
    r.lexicographic = false ↔ ∀ p, p + 1 < r.boundColumns →
      ∃ field a b, r.index.fields[p]? = some field ∧ lo.bound.values[p]? = some a ∧
        hi.bound.values[p]? = some b ∧ (a.Agrees field b ∨ a.Rounded b) := by
  obtain ⟨index, -, c, hc, rfl⟩ := exists_mem_allOn_of_chooseRange h
  have hnull : ∀ b ∈ lo.bound.values, b ≠ .literal .null := by
    intro b hb
    have hmem : b ∈ c.range.values :=
      List.mem_flatMap.2 ⟨lo, List.mem_append_left _ (Option.mem_toList.2 hlo), hb⟩
    obtain ⟨a, ha, hvalue⟩ := Candidate.exists_of_mem_allOn hc hmem
    obtain ⟨e, -, ha⟩ := List.mem_flatMap.1 ha
    exact SearchArgument.ne_null_of_mem_ofConjunct ha b hvalue
  rw [Candidate.isSettled_of_mem_allOn hc lo hi hlo hhi, List.any_eq_false]
  simp only [List.mem_range, Bool.not_eq_true', Bool.not_eq_false, KeyRange.isFixed_iff hnull,
    Nat.lt_sub_iff_add_lt]

/-- The number `2 ^ 53`. -/
def longNumber : Binary64 := { Binary64.zero false with exponent := 1076, exponent_lt := by decide }

theorem toRat_longNumber : longNumber.toRat = 2 ^ 53 := by
  have hsign : Binary64.sign longNumber.negative = 1 := rfl
  have hsignificand : longNumber.significand = 2 ^ 52 := rfl
  have hscale : longNumber.scale = 1 := rfl
  rw [Binary64.toRat, hsign, hsignificand, hscale]
  norm_num

/-- An integer of 54 digits, the one behind `longNumber`, is rounded to it. -/
theorem not_agrees_longNumber (field : IndexField) :
    ¬BoundValue.Agrees field (.literal (.double longNumber))
      (.literal (.integer 9007199254740993)) := by
  rintro (_ | ⟨_ | ⟨x, left, right⟩ | _⟩)
  have hsame : longNumber.toRat = (Int64.toInt 9007199254740993 : ℤ) :=
    Option.some.inj (left.trans right.symm)
  rw [toRat_longNumber] at hsame
  have hinteger : Int64.toInt 9007199254740993 = 9007199254740993 := by decide
  rw [hinteger] at hsame
  norm_num at hsame

/-- The conjuncts of `(x, y) BETWEEN (9007199254740992.0, 1) AND (9007199254740993, 5)`. -/
def roundedConjuncts : List BoundExpr :=
  let column (position : Nat) (name : String) : BoundExpr :=
    .column { source := 0, qualifier := "points", position, name, type := some .bigint,
              collation := none }
  [.between (.row [column 0 "x", column 1 "y"])
    (.row [.literal (.double longNumber), .literal (.integer 1)])
    (.row [.literal (.integer 9007199254740993), .literal (.integer 5)]) false]

/-- The range is not lexicographic, although its ends differ on the first field. -/
theorem lexicographic_roundedConjuncts :
    ∃ r lo hi, chooseRange pointTable 0 roundedConjuncts = .ok (some r) ∧ r.lo = some lo ∧
      r.hi = some hi ∧ r.lexicographic = false ∧
        ∃ field a b, r.index.fields[0]? = some field ∧ lo.bound.values[0]? = some a ∧
          hi.bound.values[0]? = some b ∧ a.Rounded b ∧ ¬a.Agrees field b := by
  obtain ⟨r, lo, hi, hr, hlo, hhi, hlexicographic, hwidth, hstart⟩ : ∃ r lo hi,
      chooseRange pointTable 0 roundedConjuncts = .ok (some r) ∧ r.lo = some lo ∧
        r.hi = some hi ∧ r.lexicographic = false ∧ r.boundColumns = 2 ∧
          lo.bound.values[0]? = some (.literal (.double longNumber)) ∧
            hi.bound.values[0]? = some (.literal (.integer 9007199254740993)) :=
    ⟨_, _, _, rfl, rfl, rfl, rfl, rfl, rfl, rfl⟩
  obtain ⟨field, a, b, hfield, ha, hb, hagree⟩ :=
    (lexicographic_eq_false_iff hr hlo hhi).1 hlexicographic 0 (by omega)
  have hdiffers : ¬a.Agrees field b := by
    rw [hstart.1, Option.some.injEq] at ha
    rw [hstart.2, Option.some.injEq] at hb
    rw [← ha, ← hb]
    exact not_agrees_longNumber field
  exact ⟨r, lo, hi, hr, hlo, hhi, hlexicographic, field, a, b, hfield, ha, hb,
    hagree.resolve_left hdiffers, hdiffers⟩

end QueryPlanner
