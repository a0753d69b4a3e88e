import Mathlib.Tactic.Choose
import QueryPlanner.Proofs.AccessPath.Candidate

/-!
# Chosen ranges are exact

A chosen range admits exactly the keys that satisfy the search arguments it was made from.  It is
only assumed that literals which pass for the same value of a field are equal in the order of its
column.

Two ends that agree on all bound fields but the last make the range an exact match on these, and
the range is marked so.  It admits the same keys as the interval of the whole keys between its ends
(`settle_admits_iff`), so the mark never decides which rows are read.

Main statement: `chooseRange_exact`.
-/

namespace QueryPlanner

/-- Literals that pass for the same value of an index field are equal in the order of its
column. -/
def Valuation.RespectsLiterals (v : Valuation) (source : Nat) (index : Index) : Prop :=
  ∀ field ∈ index.fields, ∀ a b : Value, BoundValue.sameLiteral field a b = true →
    (v.order source field.columnPosition).compare a b = .eq

namespace Valuation

variable {v : Valuation} {source : Nat}

/-- Only how each field compares matters for how a key does. -/
theorem compareKey_congr {fields others : List (Nat × BoundValue)}
    (h : fields.map (v.compareField source) = others.map (v.compareField source)) :
    v.compareKey source fields = v.compareKey source others := by
  induction fields generalizing others with
  | nil => rw [List.map_eq_nil_iff.1 h.symm]
  | cons field fields ih =>
      cases others with
      | nil => cases h
      | cons other others =>
          rw [List.map_cons, List.map_cons, List.cons.injEq] at h
          rw [compareKey_cons, compareKey_cons, h.1, ih h.2]

/-- A key that is neither before nor behind the common beginning of two ends agrees with it. -/
theorem eq_of_between {o lower upper : Ordering} {loInclusive hiInclusive : Bool}
    (hlower : (Restriction.atLeast loInclusive).admits (o.then lower) = true)
    (hupper : (Restriction.atMost hiInclusive).admits (o.then upper) = true) : o = .eq := by
  cases o with
  | eq => rfl
  | lt => cases loInclusive <;> cases hlower
  | gt => cases hiInclusive <;> cases hupper

/-- Keys between two ends with a common beginning agree with it, and lie between the two on the
field behind it. -/
theorem between_concat_iff {fields : List (Nat × BoundValue)} {lower upper : Nat × BoundValue}
    {loInclusive hiInclusive : Bool} :
    (Restriction.atLeast loInclusive).admits (v.compareKey source (fields ++ [lower])) = true ∧
        (Restriction.atMost hiInclusive).admits (v.compareKey source (fields ++ [upper])) = true ↔
      (∀ field ∈ fields, v.compareField source field = .eq) ∧
        (Restriction.atLeast loInclusive).admits (v.compareField source lower) = true ∧
          (Restriction.atMost hiInclusive).admits (v.compareField source upper) = true := by
  rw [compareKey_append, compareKey_append, ← compareKey_eq_eq_iff]
  constructor
  · intro h
    have heq := eq_of_between h.1 h.2
    rw [heq] at h
    simpa [heq] using h
  · rintro ⟨heq, h⟩
    simpa [heq] using h

theorem meetsLast_concat_iff {restriction : Restriction} {fields : List (Nat × BoundValue)}
    {last : Nat × BoundValue} :
    v.meetsLast source restriction (fields ++ [last]) ↔
      (∀ field ∈ fields, v.compareField source field = .eq) ∧
        restriction.admits (v.compareField source last) = true := by
  unfold meetsLast
  rw [List.dropLast_concat, List.getLast?_concat]
  simp

theorem compareField_of_provablyEqual {index : Index} (hv : v.RespectsLiterals source index)
    {field : IndexField} (hfield : field ∈ index.fields) {a b : BoundValue}
    (h : BoundValue.provablyEqual field a b = true) :
    v.compareField source (field.columnPosition, a) =
      v.compareField source (field.columnPosition, b) := by
  have hsame : (v.order source field.columnPosition).compare (v.bound a) (v.bound b) = .eq := by
    unfold BoundValue.provablyEqual at h
    split at h
    next i j =>
      rw [beq_iff_eq.1 h]
      exact Std.ReflCmp.compare_self
    next x y => exact hv field hfield x y h
    next => cases h
  exact Std.TransCmp.congr_right hsame

end Valuation

namespace Candidate

variable {v : Valuation} {source : Nat}

theorem zip_take_of_length_le {α β : Type} {l : List α} {values : List β} {n : Nat}
    (h : values.length ≤ n) : (l.take n).zip values = l.zip values := by
  have hzip := @List.take_zipWith _ _ _ Prod.mk l values n
  rw [List.take_of_length_le h] at hzip
  rw [List.zip, ← hzip]
  exact List.take_of_length_le (by rw [List.length_zipWith]; omega)

/-- The fields before the last are compared alike at both ends of a range that is not
lexicographic. -/
theorem compareField_dropLast_of_isFixed {index : Index} (hv : v.RespectsLiterals source index)
    {lo hi : List BoundValue × Bool} {width : Nat} (hlo : lo.1.length = width)
    (hhi : hi.1.length = width)
    (h : ∀ p < width - 1, (rangeBetween index (some lo) (some hi) width).isFixed
      (leadingEnd lo).bound (leadingEnd hi).bound p = true) :
    ((index.fields.map (·.columnPosition)).zip lo.1).dropLast.map (v.compareField source) =
      ((index.fields.map (·.columnPosition)).zip hi.1).dropLast.map (v.compareField source) := by
  have hlength : ((index.fields.map (·.columnPosition)).zip lo.1).length =
      ((index.fields.map (·.columnPosition)).zip hi.1).length := by
    rw [List.length_zip, List.length_zip, hlo, hhi]
  refine List.ext_getElem (by simp only [List.length_map, List.length_dropLast, hlength])
    fun p hp _ => ?_
  rw [List.length_map, List.length_dropLast, List.length_zip, List.length_map] at hp
  have hfixed := h p (by omega)
  -- Both ends have a value for the field, and the two pass for the same one.
  unfold KeyRange.isFixed at hfixed
  split at hfixed
  next field a b hfield ha hb =>
    have hcompare := Valuation.compareField_of_provablyEqual hv (List.mem_of_getElem? hfield)
      hfixed
    obtain ⟨_, rfl⟩ := List.getElem?_eq_some_iff.1 hfield
    obtain ⟨_, rfl⟩ := List.getElem?_eq_some_iff.1 ha
    obtain ⟨_, rfl⟩ := List.getElem?_eq_some_iff.1 hb
    simp only [List.getElem_map, List.getElem_dropLast, List.getElem_zip]
    exact hcompare
  next => cases hfixed

/-- The range between two ends admits the keys between them, whether or not it is marked as
lexicographic. -/
theorem settle_admits_iff {index : Index} (hv : v.RespectsLiterals source index)
    {lo hi : List BoundValue × Bool} {width : Nat} (hwidth : 0 < width)
    (hdegree : width ≤ index.degree) (hlo : lo.1.length = width) (hhi : hi.1.length = width) :
    (rangeBetween index (some lo) (some hi) width).settle.Admits v source ↔
      (Restriction.atLeast lo.2).admits
          (v.compareKey source ((index.fields.map (·.columnPosition)).zip lo.1)) = true ∧
        (Restriction.atMost hi.2).admits
          (v.compareKey source ((index.fields.map (·.columnPosition)).zip hi.1)) = true := by
  -- The mark only matters through the fields that the two ends bind.
  generalize hlower : (index.fields.map (·.columnPosition)).zip lo.1 = lower
  generalize hupper : (index.fields.map (·.columnPosition)).zip hi.1 = upper
  have hlengths : lower.length = width ∧ upper.length = width := by
    unfold Index.degree at hdegree
    rw [← hlower, ← hupper, List.length_zip, List.length_zip, List.length_map]
    omega
  have hends : (rangeBetween index (some lo) (some hi) width).settle.Admits v source ↔
      (rangeBetween index (some lo) (some hi) width).settle.EndAdmits v source
          (.atLeast lo.2) (leadingEnd lo) ∧
        (rangeBetween index (some lo) (some hi) width).settle.EndAdmits v source
          (.atMost hi.2) (leadingEnd hi) := by
    simp [KeyRange.Admits, KeyRange.settle, rangeBetween, leadingEnd]
  rw [hends]
  unfold KeyRange.EndAdmits
  have hfields (e : List BoundValue × Bool) :
      (rangeBetween index (some lo) (some hi) width).settle.fields (leadingEnd e) =
        (index.fields.map (·.columnPosition)).zip e.1 := rfl
  rw [hfields, hfields, hlower, hupper]
  cases hlexicographic : (rangeBetween index (some lo) (some hi) width).settle.lexicographic with
  | true => simp
  | false =>
      have hfixed : ∀ p < width - 1, (rangeBetween index (some lo) (some hi) width).isFixed
          (leadingEnd lo).bound (leadingEnd hi).bound p = true := by
        simpa [KeyRange.settle, rangeBetween] using hlexicographic
      have hprefix := compareField_dropLast_of_isFixed hv hlo hhi hfixed
      rw [hlower, hupper] at hprefix
      have hlower_ne : lower ≠ [] := List.ne_nil_of_length_pos (by omega)
      have hupper_ne : upper ≠ [] := List.ne_nil_of_length_pos (by omega)
      rw [if_neg (by simp), if_neg (by simp), Valuation.meetsLast_iff hlower_ne,
        Valuation.meetsLast_iff hupper_ne]
      refine ⟨fun h => ⟨h.1.2, h.2.2⟩, fun h => ?_⟩
      -- The common beginning of the two ends cannot be passed on either side.
      have heq : v.compareKey source lower.dropLast = .eq := by
        have hsplit (fields : List (Nat × BoundValue)) (hne : fields ≠ []) :
            v.compareKey source fields = (v.compareKey source fields.dropLast).then
              (v.compareKey source [fields.getLast hne]) := by
          rw [← Valuation.compareKey_append, List.dropLast_concat_getLast]
        rw [hsplit lower hlower_ne, hsplit upper hupper_ne,
          ← Valuation.compareKey_congr hprefix] at h
        exact Valuation.eq_of_between h.1 h.2
      have heq' : v.compareKey source upper.dropLast = .eq := by
        rw [← Valuation.compareKey_congr hprefix, heq]
      rw [Valuation.compareKey_eq_eq_iff] at heq heq'
      exact ⟨⟨heq, h.1⟩, heq', h.2⟩

/-! ## What a candidate is made from -/

/-- A range admits exactly the keys that some of the search arguments hold of, and binds all of
their columns. -/
def Serves (arguments : List SearchArgument) (r : KeyRange) : Prop :=
  ∃ kept : List SearchArgument, kept ≠ [] ∧
    (∀ a ∈ kept, a ∈ arguments ∧ ∀ field ∈ a.fields, field.1 ∈ r.boundPositions) ∧
      ∀ (v : Valuation) (source : Nat), v.RespectsLiterals source r.index →
        (r.Admits v source ↔ ∀ a ∈ kept, a.Holds v source)

section Lookups

variable {arguments : List SearchArgument} {position : Nat}

/-- What is looked up among the arguments is what one of them says. -/
theorem mem_of_findSome? {β : Type} {f : SearchArgument → Option β} (say : β → SearchArgument)
    (hf : ∀ a b, f a = some b → a = say b) {b : β} (h : arguments.findSome? f = some b) :
    say b ∈ arguments := by
  obtain ⟨a, ha, hb⟩ := List.exists_of_findSome?_eq_some h
  rw [← hf a b hb]
  exact ha

theorem mem_of_equal? {value : BoundValue}
    (h : SearchArgument.equal? arguments position = some value) :
    .column position .exactly value ∈ arguments :=
  mem_of_findSome? (.column position .exactly ·) (by grind) h

theorem mem_of_lower? {e : BoundValue × Bool}
    (h : SearchArgument.lower? arguments position = some e) :
    .column position (.atLeast e.2) e.1 ∈ arguments :=
  mem_of_findSome? (fun e => .column position (.atLeast e.2) e.1) (by grind) h

theorem mem_of_upper? {e : BoundValue × Bool}
    (h : SearchArgument.upper? arguments position = some e) :
    .column position (.atMost e.2) e.1 ∈ arguments :=
  mem_of_findSome? (fun e => .column position (.atMost e.2) e.1) (by grind) h

end Lookups

theorem mem_of_mem_zip_fixedValues {arguments : List SearchArgument} {fields : List IndexField}
    {field : Nat × BoundValue}
    (h : field ∈ (fields.map (·.columnPosition)).zip (fixedValues arguments fields)) :
    .column field.1 .exactly field.2 ∈ arguments := by
  induction fields with
  | nil => simp at h
  | cons first rest ih =>
      unfold fixedValues at h
      split at h
      next value hvalue =>
        rw [List.map_cons, List.zip_cons_cons, List.mem_cons] at h
        rcases h with rfl | h
        · exact mem_of_equal? hvalue
        · exact ih h
      next => simp at h

/-- The columns of the fields that an end binds are bound by the range. -/
theorem mem_boundPositions_settle {index : Index}
    {lower upper : Option (List BoundValue × Bool)} {values : List BoundValue} {width : Nat}
    (hlength : values.length ≤ width) {field : Nat × BoundValue}
    (h : field ∈ (index.fields.map (·.columnPosition)).zip values) :
    field.1 ∈ (rangeBetween index lower upper width).settle.boundPositions := by
  rw [KeyRange.boundPositions_settle]
  show field.1 ∈ (index.fields.take width).map (·.columnPosition)
  rw [List.map_take]
  rw [← zip_take_of_length_le hlength] at h
  exact (List.of_mem_zip h).1

theorem holds_column_iff {position : Nat} {restriction : Restriction} {value : BoundValue} :
    (SearchArgument.column position restriction value).Holds v source ↔
      restriction.admits (v.compareField source (position, value)) = true := by
  unfold SearchArgument.Holds SearchArgument.fields SearchArgument.restriction
  rw [Valuation.compareKey_cons, Valuation.compareKey_nil, Ordering.then_eq]

theorem holds_equalities_iff {fields : List (Nat × BoundValue)} :
    (∀ a ∈ fields.map fun field => SearchArgument.column field.1 .exactly field.2,
        a.Holds v source) ↔ ∀ field ∈ fields, v.compareField source field = .eq := by
  simp only [List.forall_mem_map, holds_column_iff, Restriction.admits, beq_iff_eq]

/-- The candidate of equalities alone. -/
theorem serves_equalities {arguments : List SearchArgument} {index : Index}
    {fixed : List BoundValue} (hfixed : fixedValues arguments index.fields = fixed)
    (hne : fixed ≠ []) :
    Serves arguments (rangeBetween index (some (fixed, true)) (some (fixed, true))
      fixed.length).settle := by
  have hdegree : fixed.length ≤ index.degree := hfixed ▸ length_fixedValues_le arguments _
  have hpos : 0 < fixed.length := List.length_pos_iff.2 hne
  refine ⟨((index.fields.map (·.columnPosition)).zip fixed).map
    fun field => .column field.1 .exactly field.2, ?_, fun a ha => ?_, fun v source hv => ?_⟩
  · refine List.ne_nil_of_length_pos ?_
    unfold Index.degree at hdegree
    rw [List.length_map, List.length_zip, List.length_map]
    omega
  · obtain ⟨field, hfield, rfl⟩ := List.mem_map.1 ha
    refine ⟨mem_of_mem_zip_fixedValues (hfixed ▸ hfield), fun other hother => ?_⟩
    rw [List.mem_singleton.1 hother]
    exact mem_boundPositions_settle (Nat.le_refl _) hfield
  · rw [KeyRange.index_settle] at hv
    rw [@settle_admits_iff v source index hv (fixed, true) (fixed, true) _ hpos hdegree rfl rfl,
      holds_equalities_iff, ← Valuation.compareKey_eq_eq_iff]
    -- A key that is not before and not behind the same end agrees with it.
    cases v.compareKey source ((index.fields.map (·.columnPosition)).zip fixed) <;>
      simp [Restriction.admits]

theorem zip_concat {α β : Type} {l : List α} {values : List β} {a : α}
    (h : l[values.length]? = some a) (x : β) :
    l.zip (values ++ [x]) = l.zip values ++ [(a, x)] := by
  induction values generalizing l with
  | nil =>
      cases l with
      | nil => cases h
      | cons b l =>
          cases h
          simp
  | cons y values ih =>
      cases l with
      | nil => cases h
      | cons b l =>
          rw [List.cons_append, List.zip_cons_cons, List.zip_cons_cons, List.cons_append, ih h]

/-- The candidate of a run of equalities and an interval on the next field. -/
theorem serves_interval {arguments : List SearchArgument} {index : Index}
    {fixed : List BoundValue} (hfixed : fixedValues arguments index.fields = fixed)
    {next : IndexField} (hnext : index.fields[fixed.length]? = some next)
    {lower upper : Option (BoundValue × Bool)}
    (hlower : SearchArgument.lower? arguments next.columnPosition = lower)
    (hupper : SearchArgument.upper? arguments next.columnPosition = upper)
    (hsome : (lower.isNone && upper.isNone) = false) :
    Serves arguments (rangeBetween index (lower.map fun e => (fixed ++ [e.1], e.2))
      (upper.map fun e => (fixed ++ [e.1], e.2)) (fixed.length + 1)).settle := by
  have hdegree : fixed.length + 1 ≤ index.degree := (List.getElem?_eq_some_iff.1 hnext).1
  have hposition : (index.fields.map (·.columnPosition))[fixed.length]? =
      some next.columnPosition := by
    rw [List.getElem?_map, hnext]
    rfl
  -- The equalities, and one argument for each end.
  refine ⟨(((index.fields.map (·.columnPosition)).zip fixed).map
      fun field => .column field.1 .exactly field.2) ++
    (lower.toList.map fun e => .column next.columnPosition (.atLeast e.2) e.1) ++
    (upper.toList.map fun e => .column next.columnPosition (.atMost e.2) e.1), ?_,
    fun a ha => ?_, fun v source hv => ?_⟩
  · rcases lower with - | lo <;> rcases upper with - | hi <;> simp at hsome ⊢
  · have hend (value : BoundValue) : (next.columnPosition, value) ∈
        (index.fields.map (·.columnPosition)).zip (fixed ++ [value]) := by
      rw [zip_concat hposition]
      exact List.mem_append_right _ List.mem_cons_self
    rw [List.mem_append, List.mem_append] at ha
    rcases ha with (ha | ha) | ha
    · obtain ⟨field, hfield, rfl⟩ := List.mem_map.1 ha
      refine ⟨mem_of_mem_zip_fixedValues (hfixed ▸ hfield), fun other hother => ?_⟩
      rw [List.mem_singleton.1 hother]
      exact mem_boundPositions_settle (Nat.le_succ _) hfield
    · obtain ⟨e, he, rfl⟩ := List.mem_map.1 ha
      refine ⟨mem_of_lower? (hlower.trans (Option.mem_toList.1 he)), fun other hother => ?_⟩
      rw [List.mem_singleton.1 hother]
      exact mem_boundPositions_settle (by simp) (hend e.1)
    · obtain ⟨e, he, rfl⟩ := List.mem_map.1 ha
      refine ⟨mem_of_upper? (hupper.trans (Option.mem_toList.1 he)), fun other hother => ?_⟩
      rw [List.mem_singleton.1 hother]
      exact mem_boundPositions_settle (by simp) (hend e.1)
  · replace hv : v.RespectsLiterals source index := by rwa [KeyRange.index_settle] at hv
    rw [List.forall_mem_append, List.forall_mem_append, holds_equalities_iff]
    -- With one end the range is not lexicographic; with two it may be, which makes no difference.
    rcases lower with - | lo <;> rcases upper with - | hi
    · cases hsome
    · simp [KeyRange.Admits, KeyRange.settle, rangeBetween, KeyRange.EndAdmits, leadingEnd,
        KeyRange.fields, IndexBound.ofLeading, zip_concat hposition,
        Valuation.meetsLast_concat_iff, holds_column_iff]
    · simp [KeyRange.Admits, KeyRange.settle, rangeBetween, KeyRange.EndAdmits, leadingEnd,
        KeyRange.fields, IndexBound.ofLeading, zip_concat hposition,
        Valuation.meetsLast_concat_iff, holds_column_iff]
    · rw [Option.map_some, Option.map_some, settle_admits_iff hv (Nat.succ_pos _) hdegree
        (by simp) (by simp), zip_concat hposition, zip_concat hposition,
        Valuation.between_concat_iff]
      simp [holds_column_iff, and_assoc]

theorem serves_columns? {arguments : List SearchArgument} {index : Index} {c : Candidate}
    (h : columns? arguments index = some c) : Serves arguments c.range := by
  unfold columns? at h
  generalize hfixed : fixedValues arguments index.fields = fixed at h
  dsimp only at h
  generalize hnext : index.fields[fixed.length]? = next at h
  split at h
  next hnone =>
    split at h
    next => cases h
    next hempty =>
      cases h
      exact serves_equalities hfixed (by simpa using hempty)
  next hsome =>
    cases h
    cases next with
    | none => exact absurd rfl hsome
    | some field => exact serves_interval hfixed hnext rfl rfl (eq_false_of_ne_true hsome)

/-! ## The candidate of a row -/

/-- An end of a range that is lexicographic when it binds several fields restricts the key. -/
theorem endAdmits_iff {index : Index} {lower upper : Option (List BoundValue × Bool)}
    {width : Nat} (hwidth : 0 < width) (hdegree : width ≤ index.degree)
    {e : List BoundValue × Bool} (he : e.1.length = width) {restriction : Restriction} :
    ({ rangeBetween index lower upper width with lexicographic := decide (1 < width) } :
        KeyRange).EndAdmits v source restriction (leadingEnd e) ↔
      restriction.admits
        (v.compareKey source ((index.fields.map (·.columnPosition)).zip e.1)) = true := by
  unfold KeyRange.EndAdmits
  dsimp only
  by_cases hlex : 1 < width
  · rw [if_pos (decide_eq_true hlex)]
    rfl
  · rw [if_neg (by simpa using hlex)]
    -- The last of one field is the whole key.
    have hlength : ((index.fields.map (·.columnPosition)).zip e.1).length = 1 := by
      unfold Index.degree at hdegree
      rw [List.length_zip, List.length_map]
      omega
    obtain ⟨field, hfield⟩ := List.length_eq_one_iff.1 hlength
    show v.meetsLast source restriction ((index.fields.map (·.columnPosition)).zip e.1) ↔ _
    rw [Valuation.meetsLast_iff (List.ne_nil_of_length_eq_add_one hlength), hfield]
    simp

section Row

variable {arguments : List SearchArgument} {index : Index} {positions : List Nat}

/-- An argument on the row binds only columns that a range over the row binds. -/
theorem mem_boundPositions_of_row {r : KeyRange}
    (htake : (index.fields.map (·.columnPosition)).take positions.length = positions)
    (hr : r.boundPositions = (index.fields.take positions.length).map (·.columnPosition))
    {restriction : Restriction} {values : List BoundValue} :
    ∀ field ∈ (SearchArgument.row positions restriction values).fields,
      field.1 ∈ r.boundPositions := by
  intro field hfield
  rw [hr, List.map_take, htake]
  exact (List.of_mem_zip hfield).1

/-- The columns of the row are the first fields of the index. -/
theorem zip_fields_eq
    (htake : (index.fields.map (·.columnPosition)).take positions.length = positions)
    {values : List BoundValue} (hlength : values.length = positions.length) :
    (index.fields.map (·.columnPosition)).zip values = positions.zip values := by
  rw [← zip_take_of_length_le (Nat.le_of_eq hlength), htake]

/-- A row with a lower end only. -/
theorem serves_from (hpos : 0 < positions.length)
    (htake : (index.fields.map (·.columnPosition)).take positions.length = positions)
    {lo : List BoundValue × Bool} (hlo : lo.1.length = positions.length)
    (hmem : .row positions (.atLeast lo.2) lo.1 ∈ arguments) :
    Serves arguments { rangeBetween index (some lo) none positions.length with
      lexicographic := decide (1 < positions.length) } := by
  refine ⟨[.row positions (.atLeast lo.2) lo.1], List.cons_ne_nil _ _, fun a ha => ?_,
    fun v source _ => ?_⟩
  · rw [List.mem_singleton.1 ha]
    exact ⟨hmem, mem_boundPositions_of_row htake rfl⟩
  · have hend := @endAdmits_iff v source index (some lo) none positions.length hpos
      (length_le_degree htake) lo hlo (.atLeast lo.2)
    rw [zip_fields_eq htake hlo] at hend
    rw [List.forall_mem_singleton]
    constructor
    · exact fun h => hend.1 (h.1 _ rfl)
    · intro h
      refine ⟨fun e he => ?_, fun e he => ?_⟩
      · cases he
        exact hend.2 h
      · cases he

/-- A row with an upper end only. -/
theorem serves_upTo (hpos : 0 < positions.length)
    (htake : (index.fields.map (·.columnPosition)).take positions.length = positions)
    {hi : List BoundValue × Bool} (hhi : hi.1.length = positions.length)
    (hmem : .row positions (.atMost hi.2) hi.1 ∈ arguments) :
    Serves arguments { rangeBetween index none (some hi) positions.length with
      lexicographic := decide (1 < positions.length) } := by
  refine ⟨[.row positions (.atMost hi.2) hi.1], List.cons_ne_nil _ _, fun a ha => ?_,
    fun v source _ => ?_⟩
  · rw [List.mem_singleton.1 ha]
    exact ⟨hmem, mem_boundPositions_of_row htake rfl⟩
  · have hend := @endAdmits_iff v source index none (some hi) positions.length hpos
      (length_le_degree htake) hi hhi (.atMost hi.2)
    rw [zip_fields_eq htake hhi] at hend
    rw [List.forall_mem_singleton]
    constructor
    · exact fun h => hend.1 (h.2 _ rfl)
    · intro h
      refine ⟨fun e he => ?_, fun e he => ?_⟩
      · cases he
      · cases he
        exact hend.2 h

/-- A row with two ends that come from one restriction each. -/
theorem serves_ends (hpos : 0 < positions.length)
    (htake : (index.fields.map (·.columnPosition)).take positions.length = positions)
    {lo hi : List BoundValue × Bool} (hlo : lo.1.length = positions.length)
    (hhi : hi.1.length = positions.length)
    (hlomem : .row positions (.atLeast lo.2) lo.1 ∈ arguments)
    (hhimem : .row positions (.atMost hi.2) hi.1 ∈ arguments) :
    Serves arguments (rangeBetween index (some lo) (some hi) positions.length).settle := by
  refine ⟨[.row positions (.atLeast lo.2) lo.1, .row positions (.atMost hi.2) hi.1],
    List.cons_ne_nil _ _, fun a ha => ?_, fun v source hv => ?_⟩
  · have hbound := (rangeBetween index (some lo) (some hi) positions.length).boundPositions_settle
    rw [List.mem_cons, List.mem_singleton] at ha
    rcases ha with rfl | rfl
    · exact ⟨hlomem, mem_boundPositions_of_row htake hbound⟩
    · exact ⟨hhimem, mem_boundPositions_of_row htake hbound⟩
  · rw [KeyRange.index_settle] at hv
    rw [@settle_admits_iff v source index hv lo hi _ hpos (length_le_degree htake) hlo hhi,
      zip_fields_eq htake hlo, zip_fields_eq htake hhi, List.forall_mem_cons,
      List.forall_mem_singleton]
    rfl

/-- A row with two ends that come from one equality. -/
theorem serves_equality (hpos : 0 < positions.length)
    (htake : (index.fields.map (·.columnPosition)).take positions.length = positions)
    {values : List BoundValue} (hvalues : values.length = positions.length)
    (hmem : .row positions .exactly values ∈ arguments) :
    Serves arguments
      (rangeBetween index (some (values, true)) (some (values, true)) positions.length).settle := by
  refine ⟨[.row positions .exactly values], List.cons_ne_nil _ _, fun a ha => ?_,
    fun v source hv => ?_⟩
  · rw [List.mem_singleton.1 ha]
    exact ⟨hmem, mem_boundPositions_of_row htake (KeyRange.boundPositions_settle _)⟩
  · rw [KeyRange.index_settle] at hv
    rw [@settle_admits_iff v source index hv (values, true) (values, true) _ hpos
      (length_le_degree htake) hvalues hvalues, zip_fields_eq htake hvalues,
      List.forall_mem_singleton]
    unfold SearchArgument.Holds SearchArgument.fields SearchArgument.restriction
    -- As for single columns, only agreement passes both ends.
    cases v.compareKey source (positions.zip values) <;> simp [Restriction.admits]

end Row

theorem serves_row? {arguments : List SearchArgument} (heven : ∀ a ∈ arguments, a.IsEven)
    {index : Index} {row : RowInterval} (hrow : row.ComesFrom arguments) {c : Candidate}
    (h : row? index row = some c) : Serves arguments c.range := by
  have hlower := hrow.length_lower heven
  have hupper := hrow.length_upper heven
  obtain ⟨positions, lower, upper, exact⟩ := row
  unfold row? at h
  dsimp only at h
  split at h
  next => cases h
  next hleading =>
    obtain ⟨hpos, htake⟩ : 0 < positions.length ∧
        (index.fields.map (·.columnPosition)).take positions.length = positions := by
      simp only [Bool.or_eq_true, not_or, bne_iff_ne, ne_eq, Decidable.not_not,
        decide_eq_true_eq] at hleading
      exact ⟨Nat.pos_of_ne_zero hleading.1, hleading.2⟩
    -- Where the ends come from decides which search arguments the range serves.
    cases hrow with
    | equality values exact mem lower upper =>
        subst lower upper
        cases h
        exact serves_equality hpos htake (hlower _ rfl) mem
    | ends _ hlomem hhimem =>
        rcases lower with - | lo <;> rcases upper with - | hi
        · cases h
        · cases h
          exact serves_upTo hpos htake (hupper _ rfl) (hhimem _ rfl)
        · cases h
          exact serves_from hpos htake (hlower _ rfl) (hlomem _ rfl)
        · cases h
          exact serves_ends hpos htake (hlower _ rfl) (hupper _ rfl) (hlomem _ rfl)
            (hhimem _ rfl)

/-- Every candidate on an index serves the arguments. -/
theorem serves_of_mem_allOn {arguments : List SearchArgument}
    (heven : ∀ a ∈ arguments, a.IsEven) {index : Index} {c : Candidate}
    (h : c ∈ allOn arguments index) : Serves arguments c.range := by
  rcases List.mem_append.1 h with h | h
  · exact serves_columns? (Option.mem_toList.1 h)
  · obtain ⟨row, hrow, hc⟩ := List.mem_filterMap.1 h
    exact serves_row? heven (RowInterval.comesFrom_of_mem_all hrow) hc

/-! ## Where candidates lie -/

theorem index_of_mem_allOn {arguments : List SearchArgument} {index : Index} {c : Candidate}
    (h : c ∈ allOn arguments index) : c.range.index = index := by
  rcases List.mem_append.1 h with h | h
  · rw [Option.mem_toList] at h
    unfold columns? at h
    dsimp only at h
    split at h
    next =>
      split at h
      next => cases h
      next =>
        cases h
        rw [KeyRange.index_settle]
        rfl
    next =>
      cases h
      rw [KeyRange.index_settle]
      rfl
  · obtain ⟨row, -, h⟩ := List.mem_filterMap.1 h
    unfold row? at h
    dsimp only at h
    split at h
    next => cases h
    next =>
      split at h
      next => cases h
      next =>
        split at h
        next =>
          cases h
          rfl
        next =>
          cases h
          rw [KeyRange.index_settle]
          rfl

end Candidate

/-- The chosen range is the range of a candidate on an index of the table. -/
theorem exists_mem_allOn_of_chooseRange {t : Table} {source : Nat} {conjuncts : List BoundExpr}
    {r : KeyRange} (h : chooseRange t source conjuncts = .ok (some r)) :
    ∃ index ∈ t.indexes,
      ∃ c ∈ Candidate.allOn (SearchArgument.ofConjuncts source conjuncts) index, c.range = r := by
  rw [chooseRange_eq] at h
  obtain ⟨c, hc, hr⟩ := Option.map_eq_some_iff.1 (Except.ok.inj h)
  obtain ⟨index, hindex, hmem⟩ := List.mem_flatMap.1 (Candidate.mem_of_best? hc)
  exact ⟨index, hindex, c, hmem, hr⟩

theorem index_mem_of_chooseRange {t : Table} {source : Nat} {conjuncts : List BoundExpr}
    {r : KeyRange} (h : chooseRange t source conjuncts = .ok (some r)) : r.index ∈ t.indexes := by
  obtain ⟨index, hindex, c, hc, rfl⟩ := exists_mem_allOn_of_chooseRange h
  rwa [Candidate.index_of_mem_allOn hc]

/-- A chosen range contains every row that satisfies the conjuncts.  It comes from some of their
comparisons, and contains just the rows that satisfy these where neither the bound columns nor the
arguments are `NULL`. -/
theorem chooseRange_exact {t : Table} {source : Nat} {conjuncts : List BoundExpr} {r : KeyRange}
    (h : chooseRange t source conjuncts = .ok (some r)) :
    r.index ∈ t.indexes ∧
      ∃ kept : List BoundExpr, kept ≠ [] ∧ (∀ e ∈ kept, ∃ c ∈ conjuncts, e ∈ c.comparisons) ∧
        ∀ v : Valuation, v.RespectsLiterals source r.index →
          ((∀ c ∈ conjuncts, v.truth c = .holds) → r.Admits v source) ∧
            ((∀ p ∈ r.boundPositions, v.cell source p ≠ .null) → (∀ i, v.argument i ≠ .null) →
              (r.Admits v source ↔ ∀ e ∈ kept, v.truth e = .holds)) := by
  have hindex := index_mem_of_chooseRange h
  obtain ⟨index, -, c, hc, rfl⟩ := exists_mem_allOn_of_chooseRange h
  have heven : ∀ a ∈ SearchArgument.ofConjuncts source conjuncts, a.IsEven := by
    intro a ha
    obtain ⟨e, -, he⟩ := List.mem_flatMap.1 ha
    exact SearchArgument.isEven_of_mem_ofConjunct he
  obtain ⟨arguments, hne, hfrom, hserves⟩ := Candidate.serves_of_mem_allOn heven hc
  -- Each argument that the range was made from says what some comparison says.
  have hmeans : ∀ a ∈ arguments, ∃ e, (∃ c ∈ conjuncts, e ∈ c.comparisons) ∧ a.Means source e := by
    intro a ha
    obtain ⟨c, hc, ha⟩ := List.mem_flatMap.1 (hfrom a ha).1
    obtain ⟨e, he, hmeans⟩ := SearchArgument.exists_means_of_mem_ofConjunct ha
    exact ⟨e, ⟨c, hc, he⟩, hmeans⟩
  choose said hof hsaid using hmeans
  have hkept (P : BoundExpr → Prop) :
      (∀ e ∈ arguments.attach.map fun a => said a.1 a.2, P e) ↔ ∀ a, ∀ ha, P (said a ha) := by
    rw [List.forall_mem_map]
    exact ⟨fun h a ha => h ⟨a, ha⟩ (List.mem_attach _ _), fun h a _ => h a.1 a.2⟩
  refine ⟨hindex, arguments.attach.map fun a => said a.1 a.2,
    by simpa using hne, (hkept _).2 hof, fun v hv => ?_⟩
  rw [hserves v source hv, hkept]
  constructor
  · intro hall a ha
    obtain ⟨e, he, hcomparison⟩ := hof a ha
    exact (hsaid a ha v).1 (BoundExpr.truth_of_mem_comparisons hcomparison (hall e he))
  · intro hcells harguments
    constructor
    · intro hholds a ha
      have hbound := (hfrom a ha).2
      exact (hsaid a ha v).2 (fun field hfield => hcells _ (hbound field hfield)) harguments
        (hholds a ha)
    · intro hholds a ha
      exact (hsaid a ha v).1 (hholds a ha)

/-- A table with two columns and an index on both. -/
def pointTable : Table :=
  let name : TableName := ⟨"main", "points"⟩
  let field (position : Nat) (column : String) : IndexField :=
    { position, column, columnPosition := position, type := .bigint, collation := none }
  { name
    columns := [{ name := "x", type := .bigint }, { name := "y", type := .bigint }]
    indexes := [{ name := "byPoint", table := name, unique := false,
                  fields := [field 0 "x", field 1 "y"] }] }

/-- The conjuncts of `x = 1 AND y BETWEEN 2 AND $1`. -/
def pointConjuncts : List BoundExpr :=
  let column (position : Nat) (name : String) : BoundExpr :=
    .column { source := 0, qualifier := "points", position, name, type := some .bigint,
              collation := none }
  [.binary .eq (column 0 "x") (.literal (.integer 1)),
    .between (column 1 "y") (.literal (.integer 2)) (.parameter 0) false]

theorem chooseRange_exact_pointTable :
    ∃ r, chooseRange pointTable 0 pointConjuncts = .ok (some r) ∧ r.index ∈ pointTable.indexes ∧
      ∃ kept : List BoundExpr, kept ≠ [] ∧
        (∀ e ∈ kept, ∃ c ∈ pointConjuncts, e ∈ c.comparisons) ∧
          ∀ v : Valuation, v.RespectsLiterals 0 r.index →
            ((∀ c ∈ pointConjuncts, v.truth c = .holds) → r.Admits v 0) ∧
              ((∀ p ∈ r.boundPositions, v.cell 0 p ≠ .null) → (∀ i, v.argument i ≠ .null) →
                (r.Admits v 0 ↔ ∀ e ∈ kept, v.truth e = .holds)) := by
  obtain ⟨r, hr⟩ : ∃ r, chooseRange pointTable 0 pointConjuncts = .ok (some r) := ⟨_, rfl⟩
  exact ⟨r, hr, chooseRange_exact hr⟩

end QueryPlanner
