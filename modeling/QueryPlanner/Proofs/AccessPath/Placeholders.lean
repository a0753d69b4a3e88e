import QueryPlanner.Proofs.AccessPath.Exactness

/-!
# The constants of a key range

The ends of a range hold values, and every value that a chosen range holds is a constant of the
conjuncts that it was chosen for: one of their literals or placeholders.  So a range mentions no
other placeholders than they do.

Main statements: `constants_of_chooseRange` and `placeholders_of_chooseRange`.
-/

namespace QueryPlanner

/-! ## Constants and placeholders -/

mutual

/-- The placeholders of a bound expression, left to right. -/
def BoundExpr.placeholders : BoundExpr → List UInt64
  | .column _ | .literal _ => []
  | .parameter index => [index]
  | .binary _ left right => left.placeholders ++ right.placeholders
  | .not operand | .isNull operand _ => operand.placeholders
  | .between operand low high _ => operand.placeholders ++ low.placeholders ++ high.placeholders
  | .row items => BoundExpr.placeholdersOfItems items

def BoundExpr.placeholdersOfItems : List BoundExpr → List UInt64
  | [] => []
  | item :: rest => item.placeholders ++ BoundExpr.placeholdersOfItems rest

end

mutual

/-- The constants of a bound expression, left to right: its literals and its placeholders. -/
def BoundExpr.constants : BoundExpr → List BoundValue
  | .column _ => []
  | .literal value => [.literal value]
  | .parameter index => [.parameter index]
  | .binary _ left right => left.constants ++ right.constants
  | .not operand | .isNull operand _ => operand.constants
  | .between operand low high _ => operand.constants ++ low.constants ++ high.constants
  | .row items => BoundExpr.constantsOfItems items

def BoundExpr.constantsOfItems : List BoundExpr → List BoundValue
  | [] => []
  | item :: rest => item.constants ++ BoundExpr.constantsOfItems rest

end

/-- The placeholder that a value of a partial key stands for. -/
def BoundValue.placeholders : BoundValue → List UInt64
  | .literal _ => []
  | .parameter index => [index]

namespace KeyRange

/-- The values at the ends of a range. -/
def values (r : KeyRange) : List BoundValue :=
  (r.lo.toList ++ r.hi.toList).flatMap (·.bound.values)

@[simp] theorem values_settle (r : KeyRange) : r.settle.values = r.values := by
  rw [values, values, lo_settle, hi_settle]

/-- The placeholders at the ends of a range. -/
def placeholders (r : KeyRange) : List UInt64 := r.values.flatMap BoundValue.placeholders

end KeyRange

namespace BoundExpr

mutual

/-- The placeholders of an expression are those among its constants. -/
theorem flatMap_placeholders_constants :
    ∀ e : BoundExpr, e.constants.flatMap BoundValue.placeholders = e.placeholders
  | .column _ | .literal _ | .parameter _ => rfl
  | .binary _ left right => by
      rw [constants, placeholders, List.flatMap_append, flatMap_placeholders_constants left,
        flatMap_placeholders_constants right]
  | .not operand | .isNull operand _ => flatMap_placeholders_constants operand
  | .between operand low high _ => by
      rw [constants, placeholders, List.flatMap_append, List.flatMap_append,
        flatMap_placeholders_constants operand, flatMap_placeholders_constants low,
        flatMap_placeholders_constants high]
  | .row items => flatMap_placeholders_constantsOfItems items

theorem flatMap_placeholders_constantsOfItems :
    ∀ items : List BoundExpr,
      (constantsOfItems items).flatMap BoundValue.placeholders = placeholdersOfItems items
  | [] => rfl
  | item :: rest => by
      rw [constantsOfItems, placeholdersOfItems, List.flatMap_append,
        flatMap_placeholders_constants item, flatMap_placeholders_constantsOfItems rest]

end

/-- The conjuncts of a predicate have its placeholders. -/
theorem placeholders_conjuncts (e : BoundExpr) :
    e.conjuncts.flatMap placeholders = e.placeholders := by
  fun_induction conjuncts e with
  | case1 left right ihLeft ihRight =>
      rw [List.flatMap_append, ihLeft, ihRight, placeholders]
  | case2 e _ => exact List.flatMap_singleton placeholders e

theorem constants_of_constant? {e : BoundExpr} {value : BoundValue}
    (h : e.constant? = some value) : e.constants = [value] := by
  unfold constant? at h
  split at h <;> cases h <;> simp [constants]

theorem constants_of_constants? {e : BoundExpr} {values : List BoundValue}
    (h : e.constants? = some values) : e.constants = values := by
  unfold constants? at h
  split at h
  next items =>
    rw [constants]
    induction items generalizing values with
    | nil =>
        cases h
        rw [constantsOfItems]
        rfl
    | cons item rest ih =>
        simp only [List.mapM_cons, Option.bind_eq_bind, Option.pure_def, Option.bind_eq_some_iff,
          Option.some.injEq] at h
        obtain ⟨first, hfirst, others, hothers, rfl⟩ := h
        rw [constantsOfItems, constants_of_constant? hfirst, ih hothers, List.singleton_append]
  next => cases h

end BoundExpr

/-! ## Search arguments -/

namespace SearchArgument

variable {source : Nat}

/-- The values that columns are compared with. -/
def values : SearchArgument → List BoundValue
  | .column _ _ value => [value]
  | .row _ _ values => values

theorem values_of_ofScalars? {a : SearchArgument} {op : BinaryOp} {left right : BoundExpr}
    (h : ofScalars? source op left right = some a) : a.values = right.constants := by
  simp only [ofScalars?, Option.bind_eq_bind, Option.pure_def, Option.bind_eq_some_iff,
    Option.some.injEq] at h
  obtain ⟨p, -, restriction, -, value, hvalue, rfl⟩ := h
  exact (BoundExpr.constants_of_constant? hvalue).symm

theorem values_of_ofRow? {a : SearchArgument} {positions : List Nat}
    {restriction : Restriction} {values : List BoundValue} {e : BoundExpr}
    (hvalues : e.constants? = some values) (h : ofRow? positions restriction values = some a) :
    a.values = e.constants := by
  obtain ⟨rfl, -⟩ := eq_row_of_ofRow? h
  exact (BoundExpr.constants_of_constants? hvalues).symm

theorem values_of_ofRows? {a : SearchArgument} {op : BinaryOp} {left right : BoundExpr}
    (h : ofRows? source op left right = some a) : a.values = right.constants := by
  simp only [ofRows?, Option.bind_eq_bind, Option.bind_eq_some_iff] at h
  obtain ⟨positions, -, restriction, -, values, hvalues, ha⟩ := h
  exact values_of_ofRow? hvalues ha

theorem values_of_ofComparison? {a : SearchArgument} {op : BinaryOp}
    {left right : BoundExpr} (h : ofComparison? source op left right = some a) :
    a.values = left.constants ∨ a.values = right.constants := by
  unfold ofComparison? at h
  simp only [Option.orElse_eq_orElse, Option.orElse_eq_or, Option.or_eq_some_iff] at h
  -- The constants stand on the right of the columns, or on the left.
  rcases h with h | ⟨-, h | ⟨-, h | ⟨-, h⟩⟩⟩
  · exact .inr (values_of_ofScalars? h)
  · exact .inl (values_of_ofScalars? h)
  · exact .inr (values_of_ofRows? h)
  · exact .inl (values_of_ofRows? h)

theorem values_of_mem_ofBetween {a : SearchArgument} {operand low high : BoundExpr}
    (h : a ∈ ofBetween source operand low high) :
    a.values = low.constants ∨ a.values = high.constants := by
  unfold ofBetween at h
  split at h
  next position lo hi hposition hlo hhi =>
    rw [BoundExpr.constants_of_constant? hlo, BoundExpr.constants_of_constant? hhi]
    rw [List.mem_cons, List.mem_singleton] at h
    rcases h with rfl | rfl
    · exact .inl rfl
    · exact .inr rfl
  next =>
    split at h
    next positions lo hi hpositions hlo hhi =>
      rw [List.mem_append, Option.mem_toList, Option.mem_toList] at h
      exact h.imp (values_of_ofRow? hlo) (values_of_ofRow? hhi)
    next => cases h

/-- An argument compares with constants of its conjunct only. -/
theorem values_of_mem_ofConjunct {a : SearchArgument} {c : BoundExpr}
    (h : a ∈ ofConjunct source c) : a.values ⊆ c.constants := by
  unfold ofConjunct at h
  split at h
  next op left right =>
    rw [BoundExpr.constants]
    rcases values_of_ofComparison? (Option.mem_toList.1 h) with heq | heq
    · exact heq ▸ List.subset_append_left _ _
    · exact heq ▸ List.subset_append_right _ _
  next operand low high =>
    rw [BoundExpr.constants, List.append_assoc]
    refine List.subset_append_of_subset_right _ ?_
    rcases values_of_mem_ofBetween h with heq | heq
    · exact heq ▸ List.subset_append_left _ _
    · exact heq ▸ List.subset_append_right _ _
  next => cases h

end SearchArgument

/-! ## Candidates -/

namespace Candidate

variable {arguments : List SearchArgument} {index : Index}

theorem exists_of_mem_values {lower upper : Option (List BoundValue × Bool)} {width : Nat}
    {value : BoundValue} (h : value ∈ (rangeBetween index lower upper width).values) :
    ∃ e, (e ∈ lower ∨ e ∈ upper) ∧ value ∈ e.1 := by
  obtain ⟨e, he, hvalue⟩ := List.mem_flatMap.1 h
  rw [List.mem_append, Option.mem_toList, Option.mem_toList] at he
  rcases he with he | he
  · obtain ⟨lo, hlo, rfl⟩ := Option.map_eq_some_iff.1 he
    exact ⟨lo, .inl hlo, hvalue⟩
  · obtain ⟨hi, hhi, rfl⟩ := Option.map_eq_some_iff.1 he
    exact ⟨hi, .inr hhi, hvalue⟩

theorem exists_of_mem_fixedValues {fields : List IndexField} {value : BoundValue}
    (h : value ∈ fixedValues arguments fields) : ∃ a ∈ arguments, value ∈ a.values := by
  induction fields with
  | nil => cases h
  | cons field rest ih =>
      unfold fixedValues at h
      split at h
      next first hfirst =>
        rcases List.mem_cons.1 h with rfl | h
        · exact ⟨_, mem_of_equal? hfirst, List.mem_singleton_self _⟩
        · exact ih h
      next => cases h

/-- The values of an end are those of the equalities and one more. -/
theorem exists_of_mem_extended {restriction : Option (BoundValue × Bool)}
    (hrestriction : ∀ last ∈ restriction, ∃ a ∈ arguments, last.1 ∈ a.values)
    {fields : List IndexField} {e : List BoundValue × Bool}
    (he : e ∈ restriction.map fun (value, inclusive) =>
      (fixedValues arguments fields ++ [value], inclusive))
    {value : BoundValue} (hvalue : value ∈ e.1) : ∃ a ∈ arguments, value ∈ a.values := by
  obtain ⟨last, hlast, rfl⟩ := Option.map_eq_some_iff.1 he
  rcases List.mem_append.1 hvalue with hvalue | hvalue
  · exact exists_of_mem_fixedValues hvalue
  · rw [List.mem_singleton.1 hvalue]
    exact hrestriction last hlast

theorem exists_of_columns? {c : Candidate} (h : columns? arguments index = some c)
    {value : BoundValue} (hvalue : value ∈ c.range.values) :
    ∃ a ∈ arguments, value ∈ a.values := by
  unfold columns? at h
  dsimp only at h
  generalize index.fields[(fixedValues arguments index.fields).length]? = next at h
  split at h
  next =>
    split at h
    next => cases h
    next =>
      cases h
      rw [KeyRange.values_settle] at hvalue
      obtain ⟨e, he, hvalue⟩ := exists_of_mem_values hvalue
      rw [Option.mem_some_iff, or_self] at he
      subst he
      exact exists_of_mem_fixedValues hvalue
  next =>
    cases h
    rw [KeyRange.values_settle] at hvalue
    obtain ⟨e, he, hvalue⟩ := exists_of_mem_values hvalue
    rcases he with he | he
    · refine exists_of_mem_extended (fun last hlast => ?_) he hvalue
      obtain ⟨field, -, hlower⟩ := Option.bind_eq_some_iff.1 hlast
      exact ⟨_, mem_of_lower? hlower, List.mem_singleton_self _⟩
    · refine exists_of_mem_extended (fun last hlast => ?_) he hvalue
      obtain ⟨field, -, hupper⟩ := Option.bind_eq_some_iff.1 hlast
      exact ⟨_, mem_of_upper? hupper, List.mem_singleton_self _⟩

/-- The ends of a row are the values of an argument. -/
theorem exists_of_end {row : RowInterval} (h : row.ComesFrom arguments)
    {e : List BoundValue × Bool} (he : e ∈ row.lower ∨ e ∈ row.upper) :
    ∃ a ∈ arguments, a.values = e.1 := by
  cases h with
  | equality values exact mem lower upper =>
      rw [lower, upper, Option.mem_some_iff, or_self] at he
      subst he
      exact ⟨_, mem, rfl⟩
  | ends exact lower upper =>
      rcases he with he | he
      · exact ⟨_, lower e he, rfl⟩
      · exact ⟨_, upper e he, rfl⟩

theorem values_row? {row : RowInterval} {c : Candidate} (h : row? index row = some c) :
    c.range.values = (rangeBetween index row.lower row.upper row.positions.length).values := by
  unfold row? at h
  dsimp only at h
  split at h
  next => cases h
  next =>
    split at h
    next => cases h
    next =>
      split at h
      next =>
        cases h
        rfl
      next =>
        cases h
        exact KeyRange.values_settle _

/-- Every value of a candidate is one that an argument compares with. -/
theorem exists_of_mem_allOn {c : Candidate} (h : c ∈ allOn arguments index) {value : BoundValue}
    (hvalue : value ∈ c.range.values) : ∃ a ∈ arguments, value ∈ a.values := by
  rcases List.mem_append.1 h with h | h
  · exact exists_of_columns? (Option.mem_toList.1 h) hvalue
  · obtain ⟨row, hrow, hc⟩ := List.mem_filterMap.1 h
    rw [values_row? hc] at hvalue
    obtain ⟨e, he, hvalue⟩ := exists_of_mem_values hvalue
    obtain ⟨a, ha, hvalues⟩ := exists_of_end (RowInterval.comesFrom_of_mem_all hrow) he
    exact ⟨a, ha, hvalues ▸ hvalue⟩

end Candidate

/-- A chosen range holds constants of the conjuncts only. -/
theorem constants_of_chooseRange {t : Table} {source : Nat} {conjuncts : List BoundExpr}
    {r : KeyRange} (h : chooseRange t source conjuncts = .ok (some r)) :
    r.values ⊆ conjuncts.flatMap BoundExpr.constants := by
  obtain ⟨index, -, c, hc, rfl⟩ := exists_mem_allOn_of_chooseRange h
  intro value hvalue
  obtain ⟨a, ha, hmem⟩ := Candidate.exists_of_mem_allOn hc hvalue
  obtain ⟨e, he, ha⟩ := List.mem_flatMap.1 ha
  exact List.mem_flatMap.2 ⟨e, he, SearchArgument.values_of_mem_ofConjunct ha hmem⟩

/-- A chosen range mentions placeholders of the conjuncts only. -/
theorem placeholders_of_chooseRange {t : Table} {source : Nat} {conjuncts : List BoundExpr}
    {r : KeyRange} (h : chooseRange t source conjuncts = .ok (some r)) :
    r.placeholders ⊆ conjuncts.flatMap BoundExpr.placeholders := by
  intro i hi
  obtain ⟨value, hvalue, hi⟩ := List.mem_flatMap.1 hi
  obtain ⟨e, he, hconstant⟩ := List.mem_flatMap.1 (constants_of_chooseRange h hvalue)
  refine List.mem_flatMap.2 ⟨e, he, ?_⟩
  rw [← e.flatMap_placeholders_constants]
  exact List.mem_flatMap.2 ⟨value, hconstant, hi⟩

end QueryPlanner
