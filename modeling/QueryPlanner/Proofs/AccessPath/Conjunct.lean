import QueryPlanner.Proofs.AccessPath.Meaning

/-!
# Conjuncts and their search arguments

Every search argument of a conjunct says what one of the comparisons of the conjunct says.  Where
the comparison holds, the argument does.  The converse needs that nothing in the comparison is
`NULL`: the argument only knows the order of the values, in which `NULL` is a value like others.

Main statement: `exists_means_of_mem_ofConjunct`.
-/

namespace QueryPlanner

/-! ## Restrictions and operators -/

namespace BinaryOp

theorem group_of_restriction? {op : BinaryOp} {restriction : Restriction}
    (h : op.restriction? = some restriction) : op.group = .comparison := by
  cases op <;> first | rfl | cases h

/-- The restriction that exchanged operands give is the one of the exchanged order. -/
theorem restriction?_of_flip {op : BinaryOp} {restriction : Restriction}
    (h : op.flip.restriction? = some restriction) :
    ∃ r, op.restriction? = some r ∧ ∀ o : Ordering, restriction.admits o.swap = r.admits o := by
  cases op <;> cases h
  all_goals
    refine ⟨_, rfl, fun o => ?_⟩
    cases o <;> rfl

end BinaryOp

namespace Valuation

variable {v : Valuation} {source : Nat}

/-- A comparison that holds restricts the order of its operands. -/
theorem admits_of_comparison {op : BinaryOp} {restriction : Restriction} {as bs : List Scalar}
    (hop : op.restriction? = some restriction) (h : v.comparison op as bs = .holds) :
    restriction.admits (v.compareRow as bs) = true := by
  cases op <;> cases hop
  case eq => rw [compareRow_of_sameRow h]; rfl
  -- Rows in order compare as the operator says, or are equal where it lets them be.
  all_goals
    rcases compareRow_of_besideRow (by decide) h with h | ⟨h, hequal⟩
    · rw [h]; rfl
    · first
        | rw [h]; rfl
        | cases hequal

/-- A restriction of the order of two rows without `NULL` makes their comparison hold. -/
theorem comparison_of_admits {op : BinaryOp} {restriction : Restriction} {as bs : List Scalar}
    (hop : op.restriction? = some restriction) (hlength : as.length = bs.length)
    (ha : ∀ a ∈ as, a.value ≠ .null) (hb : ∀ b ∈ bs, b.value ≠ .null)
    (h : restriction.admits (v.compareRow as bs) = true) : v.comparison op as bs = .holds := by
  cases op <;> cases hop
  case eq => exact sameRow_of_compareRow hlength ha hb (beq_iff_eq.1 h)
  all_goals
    refine besideRow_of_compareRow hlength ha hb ?_
    simpa [Restriction.admits] using h

/-! ## Operands -/

/-- The scalars of columns of a source. -/
def columnScalars (v : Valuation) (source : Nat) (positions : List Nat) : List Scalar :=
  positions.map fun p => { value := v.cell source p, order := some (v.order source p) }

/-- The scalars of constants. -/
def constantScalars (v : Valuation) (values : List BoundValue) : List Scalar :=
  values.map fun b => { value := v.bound b }

theorem scalars_of_columnOf? {e : BoundExpr} {p : Nat} (h : e.columnOf? source = some p) :
    v.scalars e = v.columnScalars source [p] := by
  unfold BoundExpr.columnOf? at h
  split at h
  next c =>
    split at h
    next hsource =>
      cases h
      rw [← hsource]
      simp [scalars, columnScalars]
    next => cases h
  next => cases h

theorem scalars_of_constant? {e : BoundExpr} {b : BoundValue} (h : e.constant? = some b) :
    v.scalars e = v.constantScalars [b] := by
  unfold BoundExpr.constant? at h
  split at h <;> cases h <;> simp [scalars, constantScalars, bound]

/-- A row of items each of which has one scalar. -/
theorem scalarsOfItems_of_mapM {α : Type} {read : BoundExpr → Option α} {scalar : α → Scalar}
    (hread : ∀ e a, read e = some a → v.scalars e = [scalar a]) {items : List BoundExpr}
    {as : List α} (h : items.mapM read = some as) :
    v.scalarsOfItems items = as.map scalar := by
  induction items generalizing as with
  | nil =>
      cases h
      simp [scalarsOfItems]
  | cons item rest ih =>
      simp only [List.mapM_cons, Option.bind_eq_bind, Option.pure_def, Option.bind_eq_some_iff,
        Option.some.injEq] at h
      obtain ⟨a, ha, as, has, rfl⟩ := h
      rw [scalarsOfItems, hread item a ha, ih has]
      rfl

theorem scalars_of_columnsOf? {e : BoundExpr} {positions : List Nat}
    (h : e.columnsOf? source = some positions) :
    v.scalars e = v.columnScalars source positions := by
  unfold BoundExpr.columnsOf? at h
  split at h
  next items =>
    rw [scalars]
    exact scalarsOfItems_of_mapM (fun _ _ => scalars_of_columnOf?) h
  next => cases h

theorem scalars_of_constants? {e : BoundExpr} {values : List BoundValue}
    (h : e.constants? = some values) : v.scalars e = v.constantScalars values := by
  unfold BoundExpr.constants? at h
  split at h
  next items =>
    rw [scalars]
    exact scalarsOfItems_of_mapM (fun _ _ => scalars_of_constant?) h
  next => cases h

theorem compareRow_columns_constants (positions : List Nat) (values : List BoundValue) :
    v.compareRow (v.columnScalars source positions) (v.constantScalars values) =
      v.compareKey source (positions.zip values) := by
  induction positions generalizing values with
  | nil => rfl
  | cons p ps ih =>
      cases values with
      | nil => rfl
      | cons b bs =>
          show (v.compareField source (p, b)).then _ = _
          rw [List.zip_cons_cons, compareKey_cons, ← ih bs]
          rfl

theorem compareRow_constants_columns (positions : List Nat) (values : List BoundValue) :
    v.compareRow (v.constantScalars values) (v.columnScalars source positions) =
      (v.compareKey source (positions.zip values)).swap := by
  induction positions generalizing values with
  | nil => cases values <;> rfl
  | cons p ps ih =>
      cases values with
      | nil => rfl
      | cons b bs =>
          have hfirst : (v.order source p).compare (v.bound b) (v.cell source p) =
              ((v.order source p).compare (v.cell source p) (v.bound b)).swap :=
            Std.OrientedCmp.eq_swap
          rw [List.zip_cons_cons, compareKey_cons, Ordering.swap_then, ← ih bs]
          show ((v.order source p).compare (v.bound b) (v.cell source p)).then _ = _
          rw [hfirst]
          rfl

end Valuation

/-! ## Constants are not `NULL` -/

namespace BoundExpr

theorem ne_null_of_constant? {e : BoundExpr} {b : BoundValue} (h : e.constant? = some b) :
    b ≠ .literal .null := by
  rintro rfl
  unfold constant? at h
  split at h <;> simp_all

theorem ne_null_of_mem_constants? {e : BoundExpr} {values : List BoundValue}
    (h : e.constants? = some values) {b : BoundValue} (hb : b ∈ values) : b ≠ .literal .null := by
  unfold constants? at h
  split at h
  next items =>
    induction items generalizing values with
    | nil =>
        cases h
        simp at hb
    | cons item rest ih =>
        simp only [List.mapM_cons, Option.bind_eq_bind, Option.pure_def, Option.bind_eq_some_iff,
          Option.some.injEq] at h
        obtain ⟨first, hfirst, others, hothers, rfl⟩ := h
        rcases List.mem_cons.1 hb with rfl | hb
        · exact ne_null_of_constant? hfirst
        · exact ih hb hothers
  next => cases h

end BoundExpr

theorem Valuation.bound_ne_null {v : Valuation} (hargument : ∀ i, v.argument i ≠ .null)
    {b : BoundValue} (hb : b ≠ .literal .null) : v.bound b ≠ .null := by
  cases b with
  | literal value => exact fun h => hb (congrArg BoundValue.literal h)
  | parameter index => exact hargument index

/-! ## What an argument says -/

namespace SearchArgument

variable {source : Nat}

/-- An argument says what a comparison says: it holds where the comparison does, and the other way
round where nothing in it is `NULL`. -/
def Means (a : SearchArgument) (source : Nat) (e : BoundExpr) : Prop :=
  ∀ v : Valuation,
    (v.truth e = .holds → a.Holds v source) ∧
      ((∀ field ∈ a.fields, v.cell source field.1 ≠ .null) → (∀ i, v.argument i ≠ .null) →
        a.Holds v source → v.truth e = .holds)

/-- An argument restricts columns on the left of an operator by constants on its right. -/
structure Restricts (a : SearchArgument) (source : Nat) (op : BinaryOp)
    (left right : BoundExpr) : Prop where
  even : a.IsEven
  restriction : op.restriction? = some a.restriction
  operands : ∃ positions values,
    (∀ v : Valuation, v.scalars left = v.columnScalars source positions) ∧
      (∀ v : Valuation, v.scalars right = v.constantScalars values) ∧
      positions.length = values.length ∧ (∀ b ∈ values, b ≠ .literal .null) ∧
      a.fields = positions.zip values

private theorem ne_null_of_operands {v : Valuation} {positions : List Nat}
    {values : List BoundValue} (hlength : positions.length = values.length)
    (hvalues : ∀ b ∈ values, b ≠ .literal .null)
    (hcell : ∀ field ∈ positions.zip values, v.cell source field.1 ≠ .null)
    (hargument : ∀ i, v.argument i ≠ .null) :
    (∀ s ∈ v.columnScalars source positions, s.value ≠ .null) ∧
      ∀ s ∈ v.constantScalars values, s.value ≠ .null := by
  constructor
  · intro s hs
    obtain ⟨p, hp, rfl⟩ := List.mem_map.1 hs
    -- Each of the columns is compared with a constant, so it is one of the fields.
    rw [← List.map_fst_zip (Nat.le_of_eq hlength)] at hp
    obtain ⟨field, hfield, rfl⟩ := List.mem_map.1 hp
    exact hcell field hfield
  · intro s hs
    obtain ⟨b, hb, rfl⟩ := List.mem_map.1 hs
    exact Valuation.bound_ne_null hargument (hvalues b hb)

theorem Restricts.means {a : SearchArgument} {op : BinaryOp} {left right : BoundExpr}
    (h : a.Restricts source op left right) : a.Means source (.binary op left right) := by
  obtain ⟨positions, values, hleft, hright, hlength, hvalues, hfields⟩ := h.operands
  intro v
  rw [v.truth_comparison (BinaryOp.group_of_restriction? h.restriction), hleft, hright, Holds,
    hfields, ← Valuation.compareRow_columns_constants]
  refine ⟨Valuation.admits_of_comparison h.restriction, fun hcell hargument => ?_⟩
  obtain ⟨hcolumns, hconstants⟩ := ne_null_of_operands hlength hvalues hcell hargument
  refine Valuation.comparison_of_admits h.restriction ?_ hcolumns hconstants
  simpa [Valuation.columnScalars, Valuation.constantScalars] using hlength

theorem Restricts.means_flip {a : SearchArgument} {op : BinaryOp} {left right : BoundExpr}
    (h : a.Restricts source op.flip right left) : a.Means source (.binary op left right) := by
  obtain ⟨positions, values, hright, hleft, hlength, hvalues, hfields⟩ := h.operands
  obtain ⟨restriction, hop, hswap⟩ := BinaryOp.restriction?_of_flip h.restriction
  intro v
  have hkey : v.compareKey source (positions.zip values) =
      (v.compareRow (v.constantScalars values) (v.columnScalars source positions)).swap := by
    rw [Valuation.compareRow_constants_columns, Ordering.swap_swap]
  -- The constants stand on the left, so the key compares with them in the exchanged order.
  rw [v.truth_comparison (BinaryOp.group_of_restriction? hop), hleft, hright, Holds, hfields, hkey,
    hswap]
  refine ⟨Valuation.admits_of_comparison hop, fun hcell hargument => ?_⟩
  obtain ⟨hcolumns, hconstants⟩ := ne_null_of_operands hlength hvalues hcell hargument
  refine Valuation.comparison_of_admits hop ?_ hconstants hcolumns
  simpa [Valuation.columnScalars, Valuation.constantScalars] using hlength.symm

/-! ## The arguments of a conjunct -/

theorem restricts_of_ofScalars? {a : SearchArgument} {op : BinaryOp} {left right : BoundExpr}
    (h : ofScalars? source op left right = some a) : a.Restricts source op left right := by
  simp only [ofScalars?, Option.bind_eq_bind, Option.pure_def, Option.bind_eq_some_iff,
    Option.some.injEq] at h
  obtain ⟨p, hp, restriction, hrestriction, b, hb, rfl⟩ := h
  exact ⟨trivial, hrestriction, [p], [b], fun _ => Valuation.scalars_of_columnOf? hp,
    fun _ => Valuation.scalars_of_constant? hb, rfl,
    by simpa using BoundExpr.ne_null_of_constant? hb, rfl⟩

theorem eq_row_of_ofRow? {a : SearchArgument} {positions : List Nat} {restriction : Restriction}
    {values : List BoundValue} (h : ofRow? positions restriction values = some a) :
    a = .row positions restriction values ∧ positions.length = values.length := by
  unfold ofRow? at h
  split at h
  next hlength => exact ⟨(Option.some.inj h).symm, hlength⟩
  next => cases h

theorem restricts_of_row {op : BinaryOp} {left right : BoundExpr} {positions : List Nat}
    {restriction : Restriction} {values : List BoundValue} {a : SearchArgument}
    (hpositions : left.columnsOf? source = some positions)
    (hvalues : right.constants? = some values) (hop : op.restriction? = some restriction)
    (h : ofRow? positions restriction values = some a) : a.Restricts source op left right := by
  obtain ⟨rfl, hlength⟩ := eq_row_of_ofRow? h
  exact ⟨hlength, hop, positions, values, fun _ => Valuation.scalars_of_columnsOf? hpositions,
    fun _ => Valuation.scalars_of_constants? hvalues, hlength,
    fun _ hb => BoundExpr.ne_null_of_mem_constants? hvalues hb, rfl⟩

theorem restricts_of_ofRows? {a : SearchArgument} {op : BinaryOp} {left right : BoundExpr}
    (h : ofRows? source op left right = some a) : a.Restricts source op left right := by
  simp only [ofRows?, Option.bind_eq_bind, Option.bind_eq_some_iff] at h
  obtain ⟨positions, hpositions, restriction, hrestriction, values, hvalues, ha⟩ := h
  exact restricts_of_row hpositions hvalues hrestriction ha

theorem restricts_of_ofComparison? {a : SearchArgument} {op : BinaryOp} {left right : BoundExpr}
    (h : ofComparison? source op left right = some a) :
    a.Restricts source op left right ∨ a.Restricts source op.flip right left := by
  unfold ofComparison? at h
  simp only [Option.orElse_eq_orElse, Option.orElse_eq_or, Option.or_eq_some_iff] at h
  -- Columns on the left or on the right, first as scalars and then as rows.
  rcases h with h | ⟨-, h | ⟨-, h | ⟨-, h⟩⟩⟩
  · exact .inl (restricts_of_ofScalars? h)
  · exact .inr (restricts_of_ofScalars? h)
  · exact .inl (restricts_of_ofRows? h)
  · exact .inr (restricts_of_ofRows? h)

theorem restricts_of_mem_ofBetween {a : SearchArgument} {operand low high : BoundExpr}
    (h : a ∈ ofBetween source operand low high) :
    a.Restricts source .gtEq operand low ∨ a.Restricts source .ltEq operand high := by
  unfold ofBetween at h
  split at h
  next position lo hi hposition hlo hhi =>
    rw [List.mem_cons, List.mem_singleton] at h
    rcases h with rfl | rfl
    · exact .inl (restricts_of_ofScalars? (by simp [ofScalars?, hposition, hlo,
        BinaryOp.restriction?]))
    · exact .inr (restricts_of_ofScalars? (by simp [ofScalars?, hposition, hhi,
        BinaryOp.restriction?]))
  next =>
    split at h
    next positions lo hi hpositions hlo hhi =>
      rw [List.mem_append, Option.mem_toList, Option.mem_toList] at h
      rcases h with h | h
      · exact .inl (restricts_of_row hpositions hlo rfl h)
      · exact .inr (restricts_of_row hpositions hhi rfl h)
    next => simp at h

/-- Every argument of a conjunct says what one of the comparisons of the conjunct says. -/
theorem exists_means_of_mem_ofConjunct {a : SearchArgument} {c : BoundExpr}
    (h : a ∈ ofConjunct source c) : ∃ e ∈ c.comparisons, a.Means source e := by
  unfold ofConjunct at h
  split at h
  next op left right =>
    have hcases := restricts_of_ofComparison? (Option.mem_toList.1 h)
    have hgroup : op.group = .comparison := by
      rcases hcases with h | h
      · exact BinaryOp.group_of_restriction? h.restriction
      · rw [← BinaryOp.group_flip]
        exact BinaryOp.group_of_restriction? h.restriction
    refine ⟨.binary op left right, by simp [BoundExpr.comparisons, hgroup], ?_⟩
    rcases hcases with h | h
    · exact h.means
    · exact h.means_flip
  next operand low high =>
    rcases restricts_of_mem_ofBetween h with h | h
    · exact ⟨_, List.mem_cons_self, h.means⟩
    · exact ⟨_, List.mem_cons_of_mem _ List.mem_cons_self, h.means⟩
  next => simp at h

/-- The arguments of a conjunct have a constant for each of their columns. -/
theorem isEven_of_mem_ofConjunct {a : SearchArgument} {c : BoundExpr}
    (h : a ∈ ofConjunct source c) : a.IsEven := by
  unfold ofConjunct at h
  split at h
  next =>
    rcases restricts_of_ofComparison? (Option.mem_toList.1 h) with h | h
    · exact h.even
    · exact h.even
  next =>
    rcases restricts_of_mem_ofBetween h with h | h
    · exact h.even
    · exact h.even
  next => simp at h

end SearchArgument

end QueryPlanner
