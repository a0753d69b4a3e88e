import Mathlib.Order.Bounds.Basic
import Mathlib.Order.Nat
import QueryPlanner.KeyRange
import QueryPlanner.Proofs.Except

/-!
# The shape of bounds

The bounds of a range select fields of an index.  A field that only one of two bounds selects is
disputed, and one that is selected after another that is not stands behind a gap.  The fields are
read in order, and the first that is one or the other decides the error; a field that is both is
told as disputed.  If there is none, the bounds select the first fields of the index, and have to
have as many values.

A gap that both bounds leave is found before a field that they dispute further on.  So two bounds
that select different fields are not always refused for that (`bounded_sharedGap`).

Main statements: `shape_of_builds`, `bounded_of_disputed`.
-/

namespace QueryPlanner

namespace KeyRange

variable {index : Index} {lo hi : Option IndexBound} {p k n : Nat}

/-! ## Selected fields -/

/-- A bound selects the field at a position. -/
def Selected (lo hi : Option IndexBound) (p : Nat) : Prop :=
  ∃ b, (lo = some b ∨ hi = some b) ∧ b.includes p = true

/-- Just one of two bounds selects the field at a position. -/
def Disputed (lo hi : Option IndexBound) (p : Nat) : Prop :=
  ∃ l ∈ lo, ∃ h ∈ hi, l.includes p ≠ h.includes p

/-- The field at a position is selected, and one before it is not. -/
def BehindGap (lo hi : Option IndexBound) (p : Nat) : Prop :=
  Selected lo hi p ∧ ∃ q < p, ¬Selected lo hi q

/-- The field at a position has no place in the shape of bounds. -/
def Offends (lo hi : Option IndexBound) (p : Nat) : Prop :=
  Disputed lo hi p ∨ BehindGap lo hi p

/-- Of the first `k` fields, just the first `n` are selected. -/
structure SelectsLeading (lo hi : Option IndexBound) (k n : Nat) : Prop where
  le : n ≤ k
  selected_iff : ∀ p < k, Selected lo hi p ↔ p < n

instance : Decidable (Selected lo hi p) :=
  decidable_of_iff ((∃ b ∈ lo, b.includes p = true) ∨ ∃ b ∈ hi, b.includes p = true) <| by
    simp only [Selected, Option.mem_def, or_and_right, exists_or]

instance : Decidable (Disputed lo hi p) :=
  inferInstanceAs (Decidable (∃ l ∈ lo, ∃ h ∈ hi, l.includes p ≠ h.includes p))

instance : Decidable (BehindGap lo hi p) :=
  inferInstanceAs (Decidable (Selected lo hi p ∧ ∃ q < p, ¬Selected lo hi q))

instance : Decidable (Offends lo hi p) :=
  inferInstanceAs (Decidable (Disputed lo hi p ∨ BehindGap lo hi p))

theorem selects?_eq_none_iff : selects? lo hi p = none ↔ Disputed lo hi p := by
  rcases lo with - | l <;> rcases hi with - | h <;> simp [selects?, Disputed]

theorem selects?_eq_some_iff {b : Bool} :
    selects? lo hi p = some b ↔ ¬Disputed lo hi p ∧ (b = true ↔ Selected lo hi p) := by
  rcases lo with - | l <;> rcases hi with - | h
  · cases b <;> simp [selects?, Disputed, Selected]
  · cases b <;> simp [selects?, Disputed, Selected]
  · cases b <;> simp [selects?, Disputed, Selected]
  · cases b <;> cases hl : l.includes p <;> cases hh : h.includes p <;>
      simp [selects?, Disputed, Selected, hl, hh]

theorem SelectsLeading.le_of_selectsLeading {n' : Nat} (h : SelectsLeading lo hi k n)
    (h' : SelectsLeading lo hi k n') : n ≤ n' := by
  by_contra hlt
  have hselected := (h.selected_iff n' (Nat.lt_of_lt_of_le (by omega) h.le)).2 (by omega)
  have hle := h.le
  exact Nat.lt_irrefl n' ((h'.selected_iff n' (by omega)).1 hselected)

theorem SelectsLeading.unique {n' : Nat} (h : SelectsLeading lo hi k n)
    (h' : SelectsLeading lo hi k n') : n = n' :=
  Nat.le_antisymm (h.le_of_selectsLeading h') (h'.le_of_selectsLeading h)

/-- A field behind the leading ones is behind a gap, if it is selected. -/
theorem SelectsLeading.behindGap_iff (h : SelectsLeading lo hi k n) :
    BehindGap lo hi k ↔ Selected lo hi k ∧ n < k := by
  refine and_congr_right fun _ => ⟨?_, fun hlt => ?_⟩
  · rintro ⟨q, hq, hselected⟩
    rw [h.selected_iff q hq] at hselected
    omega
  · refine ⟨n, hlt, ?_⟩
    rw [h.selected_iff n hlt]
    exact Nat.lt_irrefl n

theorem SelectsLeading.succ_of_selected (h : SelectsLeading lo hi k k)
    (hselected : Selected lo hi k) : SelectsLeading lo hi (k + 1) (k + 1) := by
  refine ⟨Nat.le_refl _, fun p hp => iff_of_true ?_ hp⟩
  rcases Nat.lt_succ_iff_lt_or_eq.1 hp with hlt | rfl
  · exact (h.selected_iff p hlt).2 hlt
  · exact hselected

theorem SelectsLeading.succ_of_not_selected (h : SelectsLeading lo hi k n)
    (hselected : ¬Selected lo hi k) : SelectsLeading lo hi (k + 1) n := by
  refine ⟨Nat.le_succ_of_le h.le, fun p hp => ?_⟩
  rcases Nat.lt_succ_iff_lt_or_eq.1 hp with hlt | rfl
  · exact h.selected_iff p hlt
  · exact iff_of_false hselected (Nat.not_lt.2 h.le)

/-! ## Reading the fields in order -/

/-- A disputed field is an error, whatever was read before it. -/
theorem countField_of_disputed (h : Disputed lo hi p) (bound : Nat × Bool) :
    countField index lo hi bound p = .error (.mismatchedBounds index.name p) := by
  unfold countField
  rw [selects?_eq_none_iff.2 h]

/-- So is a field behind a gap, if it is not disputed. -/
theorem countField_of_behindGap (hleading : SelectsLeading lo hi k n) (h : BehindGap lo hi k)
    (hdisputed : ¬Disputed lo hi k) :
    countField index lo hi (n, decide (n = k)) k = .error (.nonLeadingField index.name k) := by
  obtain ⟨hselected, hlt⟩ := hleading.behindGap_iff.1 h
  have hsome : selects? lo hi k = some true :=
    selects?_eq_some_iff.2 ⟨hdisputed, iff_of_true rfl hselected⟩
  unfold countField
  rw [hsome, decide_eq_false (Nat.ne_of_lt hlt)]

/-- Of any other field it is counted whether it is one of the leading ones. -/
theorem countField_of_not_offends (index : Index) (hleading : SelectsLeading lo hi k n)
    (h : ¬Offends lo hi k) :
    ∃ n', SelectsLeading lo hi (k + 1) n' ∧
      countField index lo hi (n, decide (n = k)) k = .ok (n', decide (n' = k + 1)) := by
  obtain ⟨hdisputed, hgap⟩ := not_or.1 h
  by_cases hselected : Selected lo hi k
  · -- Nothing was left out before a field that is selected.
    obtain rfl : n = k := Nat.le_antisymm hleading.le <| Nat.not_lt.1 fun hlt =>
      hgap (hleading.behindGap_iff.2 ⟨hselected, hlt⟩)
    have hsome : selects? lo hi n = some true :=
      selects?_eq_some_iff.2 ⟨hdisputed, iff_of_true rfl hselected⟩
    refine ⟨n + 1, hleading.succ_of_selected hselected, ?_⟩
    unfold countField
    rw [hsome, decide_eq_true rfl, decide_eq_true rfl]
  · have hsome : selects? lo hi k = some false :=
      selects?_eq_some_iff.2 ⟨hdisputed, iff_of_false Bool.false_ne_true hselected⟩
    have hle := hleading.le
    refine ⟨n, hleading.succ_of_not_selected hselected, ?_⟩
    unfold countField
    rw [hsome, decide_eq_false (show n ≠ k + 1 by omega)]

/-- Fields without an offending one are counted as far as they are leading. -/
theorem foldlM_countField_of_not_offends (index : Index) (h : ∀ p < k, ¬Offends lo hi p) :
    ∃ n, SelectsLeading lo hi k n ∧
      (List.range k).foldlM (countField index lo hi) (0, true) = .ok (n, decide (n = k)) := by
  induction k with
  | zero => exact ⟨0, ⟨Nat.le_refl 0, fun p hp => absurd hp (Nat.not_lt_zero p)⟩, rfl⟩
  | succ k ih =>
      obtain ⟨n, hleading, hfold⟩ := ih fun p hp => h p (Nat.lt_succ_of_lt hp)
      obtain ⟨n', hleading', hstep⟩ :=
        countField_of_not_offends index hleading (h k (Nat.lt_succ_self k))
      refine ⟨n', hleading', ?_⟩
      rw [List.range_succ, List.foldlM_append, hfold, ok_bind, List.foldlM_cons, hstep]
      rfl

/-- The first error ends the reading. -/
theorem foldlM_countField_of_error {e : PlanError} (hp : p < k)
    (h : (List.range (p + 1)).foldlM (countField index lo hi) (0, true) = .error e) :
    (List.range k).foldlM (countField index lo hi) (0, true) = .error e := by
  induction k with
  | zero => exact absurd hp (Nat.not_lt_zero p)
  | succ k ih =>
      rcases Nat.lt_succ_iff_lt_or_eq.1 hp with hlt | rfl
      · rw [List.range_succ, List.foldlM_append, ih hlt]
        rfl
      · exact h

theorem countFields_of_not_offends (h : ∀ p < index.degree, ¬Offends lo hi p) :
    ∃ n, SelectsLeading lo hi index.degree n ∧ countFields index lo hi = .ok n := by
  obtain ⟨n, hleading, hfold⟩ := foldlM_countField_of_not_offends index h
  refine ⟨n, hleading, ?_⟩
  rw [countFields, hfold]
  rfl

/-- The first offending field decides the error. -/
theorem countFields_of_isLeast (h : IsLeast {p | p < index.degree ∧ Offends lo hi p} p) :
    (Disputed lo hi p → countFields index lo hi = .error (.mismatchedBounds index.name p)) ∧
      (¬Disputed lo hi p → countFields index lo hi = .error (.nonLeadingField index.name p)) := by
  obtain ⟨⟨hdegree, hoffends⟩, hfirst⟩ := h
  obtain ⟨n, hleading, hfold⟩ := foldlM_countField_of_not_offends index (k := p) fun q hq hq' =>
    Nat.not_lt.2 (hfirst ⟨Nat.lt_trans hq hdegree, hq'⟩) hq
  have herror {e : PlanError} (hstep : countField index lo hi (n, decide (n = p)) p = .error e) :
      countFields index lo hi = .error e := by
    have hread : (List.range (p + 1)).foldlM (countField index lo hi) (0, true) = .error e := by
      rw [List.range_succ, List.foldlM_append, hfold, ok_bind, List.foldlM_cons, hstep]
      rfl
    rw [countFields, foldlM_countField_of_error hdegree hread]
    rfl
  exact ⟨fun hdisputed => herror (countField_of_disputed hdisputed _), fun hdisputed =>
    herror (countField_of_behindGap hleading (hoffends.resolve_left hdisputed) hdisputed)⟩

/-! ## Well-formed bounds -/

/-- A bound has a value for each of `n` fields. -/
def HasSize (n : Nat) (bound : Option IndexBound) : Prop := ∀ b ∈ bound, b.values.length = n

theorem checkSize_of_hasSize {side : Side} {bound : Option IndexBound} (h : HasSize n bound) :
    checkSize index n side bound = .ok () := by
  cases bound with
  | none => rfl
  | some b => exact if_pos (h b rfl)

theorem checkSize_of_ne {side : Side} {b : IndexBound} (h : b.values.length ≠ n) :
    checkSize index n side (some b) =
      .error (.invalidArgument (.valueCount side b.values.length n index.name)) :=
  if_neg h

theorem exists_of_not_hasSize {bound : Option IndexBound} (h : ¬HasSize n bound) :
    ∃ b ∈ bound, b.values.length ≠ n := by
  simpa [HasSize] using h

theorem boundFields_of_countFields_eq_error {e : PlanError}
    (h : countFields index lo hi = .error e) : boundFields index lo hi = .error e := by
  rw [boundFields, h]
  rfl

/-- Bounds of the right shape have to have the right sizes. -/
theorem boundFields_of_countFields (h : countFields index lo hi = .ok n) :
    boundFields index lo hi = (do
      checkSize index n .lo lo
      checkSize index n .hi hi
      return n) := by
  rw [boundFields, h]
  rfl

theorem boundFields_of_hasSize (h : countFields index lo hi = .ok n) (hlo : HasSize n lo)
    (hhi : HasSize n hi) : boundFields index lo hi = .ok n := by
  rw [boundFields_of_countFields h, checkSize_of_hasSize hlo, checkSize_of_hasSize hhi]
  rfl

/-- The lower bound is told first. -/
theorem boundFields_of_size_ne (h : countFields index lo hi = .ok n)
    (hsize : ¬(HasSize n lo ∧ HasSize n hi)) :
    ∃ side b, boundFields index lo hi =
        .error (.invalidArgument (.valueCount side b.values.length n index.name)) ∧
      b.values.length ≠ n ∧
      ((side = .lo ∧ lo = some b) ∨ (side = .hi ∧ hi = some b ∧ HasSize n lo)) := by
  rw [boundFields_of_countFields h]
  by_cases hlo : HasSize n lo
  · obtain ⟨b, hb, hne⟩ := exists_of_not_hasSize fun hhi => hsize ⟨hlo, hhi⟩
    obtain rfl := Option.mem_def.1 hb
    rw [checkSize_of_hasSize hlo, checkSize_of_ne hne]
    exact ⟨.hi, b, rfl, hne, .inr ⟨rfl, rfl, hlo⟩⟩
  · obtain ⟨b, hb, hne⟩ := exists_of_not_hasSize hlo
    obtain rfl := Option.mem_def.1 hb
    rw [checkSize_of_ne hne]
    exact ⟨.lo, b, rfl, hne, .inl ⟨rfl, rfl⟩⟩

/-- Bounds are well formed if no field offends and they have values for the selected ones. -/
theorem boundFields_eq_ok_iff :
    boundFields index lo hi = .ok n ↔ (∀ p < index.degree, ¬Offends lo hi p) ∧
      SelectsLeading lo hi index.degree n ∧ HasSize n lo ∧ HasSize n hi := by
  constructor
  · intro h
    -- An offending field would be the reason of an error, and so would the sizes.
    have hoffends : ∀ p < index.degree, ¬Offends lo hi p := by
      by_contra hex
      push Not at hex
      obtain ⟨hdisputed, hgap⟩ := countFields_of_isLeast (Nat.isLeast_find hex)
      by_cases hfirst : Disputed lo hi (Nat.find hex)
      · rw [boundFields_of_countFields_eq_error (hdisputed hfirst)] at h
        cases h
      · rw [boundFields_of_countFields_eq_error (hgap hfirst)] at h
        cases h
    obtain ⟨n', hleading, hcount⟩ := countFields_of_not_offends hoffends
    by_cases hsize : HasSize n' lo ∧ HasSize n' hi
    · rw [boundFields_of_hasSize hcount hsize.1 hsize.2] at h
      obtain rfl := Except.ok.inj h
      exact ⟨hoffends, hleading, hsize⟩
    · obtain ⟨side, b, herror, -⟩ := boundFields_of_size_ne hcount hsize
      rw [herror] at h
      cases h
  · rintro ⟨hoffends, hleading, hlo, hhi⟩
    obtain ⟨n', hleading', hcount⟩ := countFields_of_not_offends hoffends
    rw [← hleading.unique hleading'] at hcount
    exact boundFields_of_hasSize hcount hlo hhi

/-- Of the fields of an index, a bound selects just the first `n`. -/
def SelectsFirst (degree n : Nat) (b : IndexBound) : Prop :=
  ∀ p, p < degree ∧ b.includes p = true ↔ p < n

theorem includes_iff_selected {b : IndexBound} (hb : lo = some b ∨ hi = some b)
    (h : ¬Disputed lo hi p) : b.includes p = true ↔ Selected lo hi p := by
  refine ⟨fun hincludes => ⟨b, hb, hincludes⟩, ?_⟩
  rintro ⟨b', hb', hincludes⟩
  rw [← hincludes]
  by_contra hne
  rcases hb with hb | hb <;> rcases hb' with hb' | hb'
  · exact hne (by rw [Option.some.inj (hb.symm.trans hb')])
  · exact h ⟨b, hb, b', hb', hne⟩
  · exact h ⟨b', hb', b, hb, Ne.symm hne⟩
  · exact hne (by rw [Option.some.inj (hb.symm.trans hb')])

/-- No field offends just if each bound selects the first ones. -/
theorem selectsFirst_iff {degree : Nat} (hbound : ∃ b, lo = some b ∨ hi = some b) :
    (∀ p < degree, ¬Offends lo hi p) ∧ SelectsLeading lo hi degree n ↔
      ∀ b, lo = some b ∨ hi = some b → SelectsFirst degree n b := by
  constructor
  · rintro ⟨hoffends, hleading⟩ b hb p
    constructor
    · rintro ⟨hp, hincludes⟩
      exact (hleading.selected_iff p hp).1 ⟨b, hb, hincludes⟩
    · intro hp
      have hdegree := Nat.lt_of_lt_of_le hp hleading.le
      refine ⟨hdegree, ?_⟩
      rw [includes_iff_selected hb fun hdisputed => hoffends p hdegree (.inl hdisputed)]
      exact (hleading.selected_iff p hdegree).2 hp
  · intro h
    have hselected : ∀ p < degree, Selected lo hi p ↔ p < n := by
      intro p hp
      constructor
      · rintro ⟨b, hb, hincludes⟩
        exact (h b hb p).1 ⟨hp, hincludes⟩
      · intro hn
        obtain ⟨b, hb⟩ := hbound
        exact ⟨b, hb, ((h b hb p).2 hn).2⟩
    refine ⟨?_, ?_, hselected⟩
    · rintro p hp (⟨l, hl, r, hr, hne⟩ | ⟨hp', q, hq, hq'⟩)
      · have hsame : l.includes p = true ↔ r.includes p = true := by
          have hleft := h l (.inl hl) p
          have hright := h r (.inr hr) p
          rw [and_iff_right hp] at hleft hright
          exact hleft.trans hright.symm
        exact hne (Bool.eq_iff_iff.2 hsame)
      · rw [hselected p hp] at hp'
        rw [hselected q (Nat.lt_trans hq hp)] at hq'
        exact hq' (Nat.lt_trans hq hp')
    · obtain ⟨b, hb⟩ := hbound
      by_contra hlt
      exact Nat.lt_irrefl degree ((h b hb degree).2 (Nat.not_le.1 hlt)).1

/-- Bounds are well formed if each selects the first fields and has a value for each. -/
theorem boundFields_eq_ok_iff_selectsFirst (hbound : ∃ b, lo = some b ∨ hi = some b) :
    boundFields index lo hi = .ok n ↔
      ∀ b, lo = some b ∨ hi = some b → SelectsFirst index.degree n b ∧ b.values.length = n := by
  rw [boundFields_eq_ok_iff, ← and_assoc, selectsFirst_iff hbound]
  constructor
  · rintro ⟨hfirst, hlo, hhi⟩ b hb
    exact ⟨hfirst b hb, hb.elim (hlo b) (hhi b)⟩
  · intro h
    exact ⟨fun b hb => (h b hb).1, fun b hb => (h b (.inl hb)).2, fun b hb => (h b (.inr hb)).2⟩

theorem selectsFirst_ofLeading {degree : Nat} {values : List BoundValue}
    (h : values.length ≤ degree) : SelectsFirst degree values.length (.ofLeading values) := by
  intro p
  rw [IndexBound.includes, IndexBound.ofLeading, FieldSelector.includes, decide_eq_true_iff]
  omega

/-! ## Ranges -/

/-- The ways to build a range from one or two bounds. -/
inductive Builds (index : Index) :
    Option IndexBound → Option IndexBound → Except PlanError KeyRange → Prop where
  | startingAt (lo : IndexBound) (inclusive : Bool) :
      Builds index (some lo) none (startingAt index (some lo) inclusive)
  | endingAt (hi : IndexBound) (inclusive : Bool) :
      Builds index none (some hi) (endingAt index (some hi) inclusive)
  | bounded (lo : IndexBound) (loInclusive : Bool) (hi : IndexBound) (hiInclusive : Bool) :
      Builds index (some lo) (some hi) (bounded index (some lo) loInclusive (some hi) hiInclusive)

theorem ofEnds_boundColumns (index : Index) (lo hi : Option RangeEnd) :
    (ofEnds index lo hi).map (·.boundColumns) =
      boundFields index (lo.map (·.bound)) (hi.map (·.bound)) := by
  unfold ofEnds
  cases boundFields index (lo.map (·.bound)) (hi.map (·.bound)) <;> rfl

namespace Builds

variable {built : Except PlanError KeyRange}

theorem exists_bound (h : Builds index lo hi built) : ∃ b, lo = some b ∨ hi = some b := by
  cases h with
  | startingAt lo inclusive => exact ⟨lo, .inl rfl⟩
  | endingAt hi inclusive => exact ⟨hi, .inr rfl⟩
  | bounded lo loInclusive hi hiInclusive => exact ⟨lo, .inl rfl⟩

/-- A range is built if its bounds are well formed. -/
theorem boundColumns (h : Builds index lo hi built) :
    built.map (·.boundColumns) = boundFields index lo hi := by
  cases h with
  | startingAt lo inclusive => exact ofEnds_boundColumns index (some ⟨lo, inclusive⟩) none
  | endingAt hi inclusive => exact ofEnds_boundColumns index none (some ⟨hi, inclusive⟩)
  | bounded lo loInclusive hi hiInclusive =>
      exact ofEnds_boundColumns index (some ⟨lo, loInclusive⟩) (some ⟨hi, hiInclusive⟩)

theorem eq_error_iff (h : Builds index lo hi built) {e : PlanError} :
    built = .error e ↔ boundFields index lo hi = .error e := by
  rw [← h.boundColumns, map_eq_error]

theorem exists_boundColumns_iff (h : Builds index lo hi built) :
    (∃ r, built = .ok r ∧ r.boundColumns = n) ↔ boundFields index lo hi = .ok n := by
  rw [← h.boundColumns, map_eq_ok]

end Builds

/-! ## Fields that an index does not have -/

/-- Two bounds hold the same values and select the same fields of an index. -/
structure SameBound (degree : Nat) (b b' : Option IndexBound) : Prop where
  values : b'.map (·.values) = b.map (·.values)
  includes : ∀ p < degree, b'.map (·.includes p) = b.map (·.includes p)

theorem selects?_congr {lo' hi' : Option IndexBound}
    (hlo : lo'.map (·.includes p) = lo.map (·.includes p))
    (hhi : hi'.map (·.includes p) = hi.map (·.includes p)) :
    selects? lo' hi' p = selects? lo hi p := by
  cases lo <;> cases lo' <;> cases hi <;> cases hi' <;> simp_all [selects?]

theorem SameBound.checkSize {degree : Nat} {b b' : Option IndexBound} (h : SameBound degree b b')
    (index : Index) (n : Nat) (side : Side) :
    checkSize index n side b' = checkSize index n side b := by
  have hvalues := h.values
  cases b <;> cases b' <;> simp_all [KeyRange.checkSize]

/-- Bounds are checked by what they select of the fields of the index. -/
theorem boundFields_congr {lo' hi' : Option IndexBound} (hlo : SameBound index.degree lo lo')
    (hhi : SameBound index.degree hi hi') :
    boundFields index lo' hi' = boundFields index lo hi := by
  have hfold : ∀ k ≤ index.degree,
      (List.range k).foldlM (countField index lo' hi') (0, true) =
        (List.range k).foldlM (countField index lo hi) (0, true) := by
    intro k hk
    induction k with
    | zero => rfl
    | succ k ih =>
        have hstep : ∀ bound, countField index lo' hi' bound k = countField index lo hi bound k := by
          intro bound
          unfold countField
          rw [selects?_congr (hlo.includes k hk) (hhi.includes k hk)]
        rw [List.range_succ, List.foldlM_append, List.foldlM_append, ih (Nat.le_of_succ_le hk)]
        simp only [List.foldlM_cons, List.foldlM_nil, hstep]
  have hcount : countFields index lo' hi' = countFields index lo hi := by
    rw [countFields, countFields, hfold _ (Nat.le_refl _)]
  simp only [boundFields, hcount, hlo.checkSize, hhi.checkSize]

/-- Any choice among the fields of an index is the choice of a selector. -/
theorem exists_includes (degree : Nat) (chosen : Nat → Bool) :
    ∃ selector : FieldSelector, ∀ p < degree, selector.includes p = chosen p := by
  refine ⟨.fields ((List.range degree).filter chosen), fun p hp => ?_⟩
  rw [FieldSelector.includes, List.contains_eq_mem, Bool.eq_iff_iff, decide_eq_true_iff,
    List.mem_filter, List.mem_range, and_iff_right hp]

/-! ## Main statements -/

/-- A range is built from one or two bounds just if each of them selects the first fields of the
index, one at least, and has a value for each; then these fields are bound.  Otherwise the first
field that is disputed or behind a gap is told, as disputed if it is both, and if there is none, the
bound whose values are not as many as the selected fields, the lower one first.  All this is said
of bounds that select some field of the index, and of any choice of its fields; what they select
besides makes no difference. -/
theorem shape_of_builds {built : Except PlanError KeyRange} (h : Builds index lo hi built)
    (hselected : ∃ p < index.degree, Selected lo hi p) :
    (∀ n, (∃ r, built = .ok r ∧ r.boundColumns = n) ↔
        1 ≤ n ∧ ∀ b, lo = some b ∨ hi = some b →
          SelectsFirst index.degree n b ∧ b.values.length = n) ∧
      (∀ p, IsLeast {p | p < index.degree ∧ Offends lo hi p} p →
        (Disputed lo hi p → built = .error (.mismatchedBounds index.name p)) ∧
          (¬Disputed lo hi p → built = .error (.nonLeadingField index.name p))) ∧
      ((∀ p < index.degree, ¬Offends lo hi p) → (∀ r, built ≠ .ok r) →
        ∃ n side b, SelectsLeading lo hi index.degree n ∧ b.values.length ≠ n ∧
          built = .error (.invalidArgument (.valueCount side b.values.length n index.name)) ∧
          ((side = .lo ∧ lo = some b) ∨ (side = .hi ∧ hi = some b ∧ HasSize n lo))) ∧
      (∀ lo' hi' built', Builds index lo' hi' built' → SameBound index.degree lo lo' →
        SameBound index.degree hi hi' →
          built'.map (·.boundColumns) = built.map (·.boundColumns)) ∧
      ∀ chosen : Nat → Bool, ∃ selector : FieldSelector,
        ∀ p < index.degree, selector.includes p = chosen p := by
  refine ⟨fun n => ?_, fun p hp => ?_, fun hoffends hfails => ?_, ?_, exists_includes _⟩
  · rw [h.exists_boundColumns_iff, boundFields_eq_ok_iff_selectsFirst h.exists_bound]
    refine ⟨fun hbounds => ⟨?_, hbounds⟩, And.right⟩
    obtain ⟨p, hp, b, hb, hincludes⟩ := hselected
    exact Nat.lt_of_le_of_lt (Nat.zero_le p) (((hbounds b hb).1 p).1 ⟨hp, hincludes⟩)
  · obtain ⟨hdisputed, hgap⟩ := countFields_of_isLeast hp
    exact ⟨fun hp => h.eq_error_iff.2 (boundFields_of_countFields_eq_error (hdisputed hp)),
      fun hp => h.eq_error_iff.2 (boundFields_of_countFields_eq_error (hgap hp))⟩
  · obtain ⟨n, hleading, hcount⟩ := countFields_of_not_offends hoffends
    have hsize : ¬(HasSize n lo ∧ HasSize n hi) := by
      rintro ⟨hlo, hhi⟩
      obtain ⟨r, hr, -⟩ := h.exists_boundColumns_iff.2 (boundFields_of_hasSize hcount hlo hhi)
      exact hfails r hr
    obtain ⟨side, b, herror, hne, hside⟩ := boundFields_of_size_ne hcount hsize
    exact ⟨n, side, b, hleading, hne, h.eq_error_iff.2 herror, hside⟩
  · intro lo' hi' built' h' hlo hhi
    rw [h.boundColumns, h'.boundColumns, boundFields_congr hlo hhi]

/-- An index on three columns. -/
def placeIndex : Index :=
  { name := "by_place"
    table := ⟨"main", "places"⟩
    unique := false
    fields := [⟨0, "x", 0, .bigint, none⟩, ⟨1, "y", 1, .bigint, none⟩,
      ⟨2, "z", 2, .bigint, none⟩] }

/-- A bound with a zero for each of the given fields. -/
def zerosAt (positions : List Nat) : IndexBound :=
  ⟨positions.map fun _ => .literal (.integer 0), .fields positions⟩

/-- Two bounds on the first two fields make a range, and one on the first and the last does not. -/
theorem shape_of_builds_placeIndex :
    (∃ r, bounded placeIndex (some (zerosAt [1, 0])) true (some (zerosAt [0, 1])) false = .ok r ∧
        r.boundColumns = 2) ∧
      startingAt placeIndex (some (zerosAt [0, 2])) true =
        .error (.nonLeadingField "by_place" 2) := by
  constructor
  · have hbuilds : Builds placeIndex (some (zerosAt [1, 0])) (some (zerosAt [0, 1])) _ :=
      .bounded (zerosAt [1, 0]) true (zerosAt [0, 1]) false
    have hshape := shape_of_builds hbuilds ⟨0, by decide, by decide⟩
    refine (hshape.1 2).2 ⟨by decide, ?_⟩
    rintro b (hb | hb) <;> obtain rfl := Option.some.inj hb
    all_goals
      refine ⟨fun p => ?_, rfl⟩
      simp only [placeIndex, Index.degree, zerosAt, IndexBound.includes, FieldSelector.includes]
      grind
  · have hbuilds : Builds placeIndex (some (zerosAt [0, 2])) none _ :=
      .startingAt (zerosAt [0, 2]) true
    have hshape := shape_of_builds hbuilds ⟨0, by decide, by decide⟩
    refine (hshape.2.1 2 ⟨⟨by decide, by decide⟩, ?_⟩).2 (by decide)
    rintro p ⟨-, hoffends⟩
    by_contra hp
    have hbefore : ∀ q < 2, ¬Offends (some (zerosAt [0, 2])) none q := by decide
    exact hbefore p (Nat.not_le.1 hp) hoffends

/-- Two bounds of which just one selects some field do not make a range.  The first such field is
told, unless both select a field before it that is behind a gap; then that is told. -/
theorem bounded_of_disputed {lo hi : IndexBound} (loInclusive hiInclusive : Bool)
    (h : ∃ p < index.degree, lo.includes p ≠ hi.includes p) :
    ∃ d, IsLeast {p | p < index.degree ∧ lo.includes p ≠ hi.includes p} d ∧
      ((∀ p < d, ¬BehindGap (some lo) (some hi) p) →
        bounded index (some lo) loInclusive (some hi) hiInclusive =
          .error (.mismatchedBounds index.name d)) ∧
      ∀ g, IsLeast {p | p < d ∧ BehindGap (some lo) (some hi) p} g →
        bounded index (some lo) loInclusive (some hi) hiInclusive =
          .error (.nonLeadingField index.name g) := by
  have hbuilds : Builds index (some lo) (some hi) _ := .bounded lo loInclusive hi hiInclusive
  have hdisputed {p : Nat} : Disputed (some lo) (some hi) p ↔ lo.includes p ≠ hi.includes p := by
    simp [Disputed]
  obtain ⟨⟨hdegree, hdiffer⟩, hfirst⟩ := Nat.isLeast_find h
  refine ⟨Nat.find h, Nat.isLeast_find h, fun hgap => ?_, fun g hg => ?_⟩
  · -- Nothing offends before the first field that the bounds dispute.
    refine hbuilds.eq_error_iff.2 (boundFields_of_countFields_eq_error ?_)
    refine (countFields_of_isLeast ⟨⟨hdegree, .inl (hdisputed.2 hdiffer)⟩, ?_⟩).1
      (hdisputed.2 hdiffer)
    rintro p ⟨hp, hoffends | hoffends⟩
    · exact hfirst ⟨hp, hdisputed.1 hoffends⟩
    · exact Nat.not_lt.1 fun hlt => hgap p hlt hoffends
  · -- Before the first disputed field the bounds agree, so the first that offends is behind a gap.
    obtain ⟨⟨hlt, hgap⟩, hleast⟩ := hg
    have hagree : ∀ p < Nat.find h, ¬Disputed (some lo) (some hi) p := fun p hp hp' =>
      Nat.not_lt.2 (hfirst ⟨Nat.lt_trans hp hdegree, hdisputed.1 hp'⟩) hp
    refine hbuilds.eq_error_iff.2 (boundFields_of_countFields_eq_error ?_)
    refine (countFields_of_isLeast ⟨⟨Nat.lt_trans hlt hdegree, .inr hgap⟩, ?_⟩).2 (hagree g hlt)
    rintro p ⟨hp, hoffends⟩
    by_contra hpg
    have hpd := Nat.lt_trans (Nat.not_le.1 hpg) hlt
    exact hpg (hleast ⟨hpd, hoffends.resolve_left (hagree p hpd)⟩)

/-- A field that just one of the bounds selects. -/
theorem bounded_of_disputed_placeIndex :
    bounded placeIndex (some (zerosAt [0, 1])) true (some (zerosAt [0])) true =
      .error (.mismatchedBounds "by_place" 1) := by
  obtain ⟨d, hd, hmismatch, -⟩ :=
    @bounded_of_disputed placeIndex (zerosAt [0, 1]) (zerosAt [0]) true true ⟨1, by decide⟩
  obtain rfl : d = 1 := by
    refine hd.unique ⟨⟨by decide, by decide⟩, ?_⟩
    rintro p ⟨-, hdiffer⟩
    exact Nat.pos_of_ne_zero fun hp => hdiffer (by rw [hp]; rfl)
  exact hmismatch (by decide)

/-- Two bounds that differ in the last field and leave out the first. -/
theorem bounded_sharedGap :
    (∃ p < placeIndex.degree, (zerosAt [1, 2]).includes p ≠ (zerosAt [1]).includes p) ∧
      bounded placeIndex (some (zerosAt [1, 2])) true (some (zerosAt [1])) true =
        .error (.nonLeadingField "by_place" 1) :=
  ⟨⟨2, by decide⟩, rfl⟩

end KeyRange
end QueryPlanner
