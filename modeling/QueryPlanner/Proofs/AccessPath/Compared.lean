import QueryPlanner.Proofs.AccessPath.Candidate

/-!
# Which columns are compared

How many fields of an index a predicate binds does not depend on the constants in it.  It is enough
to know which columns and which rows of columns are compared with constants, and whether by an
equality.  This is read off each conjunct, and agrees with the search arguments that the conjunct
gives: on single columns (`exists_onColumn?_iff`) and on rows (`findSome?_onRow?`).

Of the comparisons of a row only the first one decides whether the interval of the row comes from an
equality, since every comparison leaves an end in it (`ofArguments_of_findSome?`).

Main statements: `equal?_isSome_iff`, `lower?_or_upper?_isSome_iff` and `exact_ofArguments`.
-/

namespace QueryPlanner

/-! ## Comparisons in conjuncts -/

/-- Whether an operator that an index can serve is the equality. -/
def BinaryOp.equates? : BinaryOp → Option Bool
  | .eq => some true
  | .lt | .ltEq | .gt | .gtEq => some false
  | _ => none

namespace BoundExpr

/-- Whether the operands are a column of a source and a constant, on either side. -/
def pairsColumn (source position : Nat) (left right : BoundExpr) : Bool :=
  left.columnOf? source == some position && right.constant?.isSome ||
    right.columnOf? source == some position && left.constant?.isSome

/-- Whether the expression is a row of a number of constants. -/
def isRowOfConstants (width : Nat) (e : BoundExpr) : Bool := e.constants?.any (·.length == width)

/-- Whether the operands are a row of columns of a source and a row of as many constants, on either
side. -/
def pairsRow (source : Nat) (positions : List Nat) (left right : BoundExpr) : Bool :=
  left.columnsOf? source == some positions && right.isRowOfConstants positions.length ||
    right.columnsOf? source == some positions && left.isRowOfConstants positions.length

/-- Whether a conjunct compares a column with constants, and then, whether by an equality. -/
def comparesColumn? (source position : Nat) : BoundExpr → Option Bool
  | .binary op left right => if pairsColumn source position left right then op.equates? else none
  | .between operand low high false =>
      if operand.columnOf? source == some position && low.constant?.isSome && high.constant?.isSome
      then some false else none
  | _ => none

/-- Whether a conjunct compares a row of columns with rows of constants, and then, whether by an
equality.  A test for a range counts if one of its bounds has a constant for each column. -/
def comparesRow? (source : Nat) (positions : List Nat) : BoundExpr → Option Bool
  | .binary op left right => if pairsRow source positions left right then op.equates? else none
  | .between operand low high false =>
      if operand.columnsOf? source == some positions && low.constants?.isSome &&
          high.constants?.isSome &&
          (low.isRowOfConstants positions.length || high.isRowOfConstants positions.length)
      then some false else none
  | _ => none

end BoundExpr

/-! ## Search arguments on columns and rows -/

/-- Whether a restriction comes from an equality. -/
def Restriction.isEquality : Restriction → Bool
  | .exactly => true
  | _ => false

theorem BinaryOp.equates?_eq_some_iff {op : BinaryOp} {equality : Bool} :
    op.equates? = some equality ↔
      ∃ restriction, op.restriction? = some restriction ∧ restriction.isEquality = equality := by
  have hmap : op.equates? = op.restriction?.map Restriction.isEquality := by cases op <;> rfl
  rw [hmap, Option.map_eq_some_iff]

/-- It does not matter on which side of an operator the constants stand. -/
theorem BinaryOp.equates?_eq_some_iff_flip {op : BinaryOp} {equality : Bool} {p q : Prop} :
    (p ∨ q) ∧ op.equates? = some equality ↔
      ∃ restriction, restriction.isEquality = equality ∧
        (p ∧ op.restriction? = some restriction ∨ q ∧ op.flip.restriction? = some restriction) := by
  have hflip : op.flip.equates? = op.equates? := by cases op <;> rfl
  constructor
  · rintro ⟨hp | hq, hop⟩
    · obtain ⟨restriction, hop, hequality⟩ := equates?_eq_some_iff.1 hop
      exact ⟨restriction, hequality, .inl ⟨hp, hop⟩⟩
    · obtain ⟨restriction, hop, hequality⟩ := equates?_eq_some_iff.1 (hflip.trans hop)
      exact ⟨restriction, hequality, .inr ⟨hq, hop⟩⟩
  · rintro ⟨restriction, hequality, ⟨hp, hop⟩ | ⟨hq, hop⟩⟩
    · exact ⟨.inl hp, equates?_eq_some_iff.2 ⟨restriction, hop, hequality⟩⟩
    · exact ⟨.inr hq, hflip.symm.trans (equates?_eq_some_iff.2 ⟨restriction, hop, hequality⟩)⟩

namespace SearchArgument

/-- Whether an argument restricts a column, and then, whether it comes from an equality. -/
def onColumn? (position : Nat) : SearchArgument → Option Bool
  | .column p restriction _ => if p = position then some restriction.isEquality else none
  | .row .. => none

/-- Whether an argument restricts a row of columns, and then, whether it comes from an equality. -/
def onRow? (positions : List Nat) : SearchArgument → Option Bool
  | .row p restriction _ => if p = positions then some restriction.isEquality else none
  | .column .. => none

variable {source position : Nat} {positions : List Nat} {op : BinaryOp} {left right : BoundExpr}
  {equality : Bool}

theorem onColumn?_eq_some_iff {a : SearchArgument} :
    a.onColumn? position = some equality ↔
      ∃ restriction value, a = .column position restriction value ∧
        restriction.isEquality = equality := by
  cases a with
  | row => simp [onColumn?]
  | column p restriction value =>
      simp only [onColumn?, Option.ite_none_right_eq_some, Option.some.injEq, column.injEq]
      constructor
      · rintro ⟨rfl, rfl⟩
        exact ⟨restriction, value, ⟨rfl, rfl, rfl⟩, rfl⟩
      · rintro ⟨_, _, ⟨rfl, rfl, rfl⟩, rfl⟩
        exact ⟨rfl, rfl⟩

theorem onRow?_eq_some_iff {a : SearchArgument} :
    a.onRow? positions = some equality ↔
      ∃ restriction values, a = .row positions restriction values ∧
        restriction.isEquality = equality := by
  cases a with
  | column => simp [onRow?]
  | row p restriction values =>
      simp only [onRow?, Option.ite_none_right_eq_some, Option.some.injEq, row.injEq]
      constructor
      · rintro ⟨rfl, rfl⟩
        exact ⟨restriction, values, ⟨rfl, rfl, rfl⟩, rfl⟩
      · rintro ⟨_, _, ⟨rfl, rfl, rfl⟩, rfl⟩
        exact ⟨rfl, rfl⟩

end SearchArgument

/-! ## Operands are of one shape -/

namespace BoundExpr

variable {source : Nat} {e : BoundExpr}

theorem eq_column_of_columnOf? {p : Nat} (h : e.columnOf? source = some p) :
    ∃ c, e = .column c := by
  cases e with
  | column c => exact ⟨c, rfl⟩
  | _ => cases h

theorem constant?_of_columnOf? {p : Nat} (h : e.columnOf? source = some p) :
    e.constant? = none := by
  obtain ⟨c, rfl⟩ := eq_column_of_columnOf? h
  rfl

theorem columnOf?_of_columnsOf? {positions : List Nat} (h : e.columnsOf? source = some positions) :
    e.columnOf? source = none := by
  cases e with
  | row items => rfl
  | _ => cases h

theorem constant?_of_columnsOf? {positions : List Nat}
    (h : e.columnsOf? source = some positions) : e.constant? = none := by
  cases e with
  | row items => rfl
  | _ => cases h

/-- A row of columns that is not empty is no row of constants. -/
theorem constants?_of_columnsOf? {positions : List Nat} (hne : positions ≠ [])
    (h : e.columnsOf? source = some positions) : e.constants? = none := by
  cases e with
  | row items =>
      cases items with
      | nil =>
          cases h
          exact absurd rfl hne
      | cons item rest =>
          simp only [columnsOf?, List.mapM_cons, Option.bind_eq_bind, Option.bind_eq_some_iff] at h
          obtain ⟨p, hp, -⟩ := h
          simp [constants?, constant?_of_columnOf? hp]
  | _ => cases h

end BoundExpr

/-! ## Comparisons and their search arguments -/

namespace SearchArgument

variable {source position : Nat} {positions : List Nat} {op : BinaryOp} {left right : BoundExpr}
  {restriction : Restriction} {equality : Bool}

theorem ofScalars?_eq_column_iff {value : BoundValue} :
    ofScalars? source op left right = some (.column position restriction value) ↔
      left.columnOf? source = some position ∧ op.restriction? = some restriction ∧
        right.constant? = some value := by
  simp only [ofScalars?, Option.bind_eq_bind, Option.pure_def, Option.bind_eq_some_iff,
    Option.some.injEq, column.injEq]
  constructor
  · rintro ⟨_, hcolumn, _, hop, _, hvalue, rfl, rfl, rfl⟩
    exact ⟨hcolumn, hop, hvalue⟩
  · rintro ⟨hcolumn, hop, hvalue⟩
    exact ⟨_, hcolumn, _, hop, _, hvalue, rfl, rfl, rfl⟩

theorem ofRows?_eq_row_iff {values : List BoundValue} :
    ofRows? source op left right = some (.row positions restriction values) ↔
      left.columnsOf? source = some positions ∧ op.restriction? = some restriction ∧
        right.constants? = some values ∧ positions.length = values.length := by
  simp only [ofRows?, ofRow?, Option.bind_eq_bind, Option.bind_eq_some_iff,
    Option.ite_none_right_eq_some, Option.some.injEq, row.injEq]
  constructor
  · rintro ⟨_, hcolumns, _, hop, _, hvalues, hlength, rfl, rfl, rfl⟩
    exact ⟨hcolumns, hop, hvalues, hlength⟩
  · rintro ⟨hcolumns, hop, hvalues, hlength⟩
    exact ⟨_, hcolumns, _, hop, _, hvalues, hlength, rfl, rfl, rfl⟩

theorem ofComparison?_eq_some_iff {a : SearchArgument} :
    ofComparison? source op left right = some a ↔
      ofScalars? source op left right = some a ∨
        ofScalars? source op left right = none ∧ (ofScalars? source op.flip right left = some a ∨
          ofScalars? source op.flip right left = none ∧ (ofRows? source op left right = some a ∨
            ofRows? source op left right = none ∧ ofRows? source op.flip right left = some a)) := by
  unfold ofComparison?
  simp only [Option.orElse_eq_orElse, Option.orElse_eq_or, Option.or_eq_some_iff]

theorem ofScalars?_eq_none (h : left.columnOf? source = none ∨ right.constant? = none) :
    ofScalars? source op left right = none := by
  unfold ofScalars?
  rcases h with h | h
  · rw [h]
    rfl
  · rw [h]
    cases left.columnOf? source with
    | none => rfl
    | some p => cases op.restriction? <;> rfl

theorem ofRows?_eq_none (h : right.constants? = none) : ofRows? source op left right = none := by
  unfold ofRows?
  rw [h]
  cases left.columnsOf? source with
  | none => rfl
  | some p => cases op.restriction? <;> rfl

/-- Columns are never compared as rows too, nor both operands with one another. -/
theorem ofComparison?_eq_column_iff {value : BoundValue} :
    ofComparison? source op left right = some (.column position restriction value) ↔
      ofScalars? source op left right = some (.column position restriction value) ∨
        ofScalars? source op.flip right left = some (.column position restriction value) := by
  have hrow {op : BinaryOp} {left right : BoundExpr} :
      ofRows? source op left right ≠ some (.column position restriction value) := by
    intro h
    simp [ofRows?, ofRow?, Option.bind_eq_some_iff] at h
  rw [ofComparison?_eq_some_iff]
  constructor
  · rintro (h | ⟨-, h | ⟨-, h | ⟨-, h⟩⟩⟩)
    · exact .inl h
    · exact .inr h
    · exact absurd h hrow
    · exact absurd h hrow
  · rintro (h | h)
    · exact .inl h
    · obtain ⟨hcolumn, -, -⟩ := ofScalars?_eq_column_iff.1 h
      have hright := BoundExpr.constant?_of_columnOf? hcolumn
      exact .inr ⟨ofScalars?_eq_none (.inr hright), .inl h⟩

/-- Rows of columns are never compared as columns too, nor both operands with one another. -/
theorem ofComparison?_eq_row_iff (hne : positions ≠ []) {values : List BoundValue} :
    ofComparison? source op left right = some (.row positions restriction values) ↔
      ofRows? source op left right = some (.row positions restriction values) ∨
        ofRows? source op.flip right left = some (.row positions restriction values) := by
  have hcolumn {op : BinaryOp} {left right : BoundExpr} :
      ofScalars? source op left right ≠ some (.row positions restriction values) := by
    intro h
    simp [ofScalars?, Option.bind_eq_some_iff] at h
  rw [ofComparison?_eq_some_iff]
  constructor
  · rintro (h | ⟨-, h | ⟨-, h | ⟨-, h⟩⟩⟩)
    · exact absurd h hcolumn
    · exact absurd h hcolumn
    · exact .inl h
    · exact .inr h
  · rintro (h | h)
    · obtain ⟨hleft, -, -⟩ := ofRows?_eq_row_iff.1 h
      have hfirst : ofScalars? source op left right = none :=
        ofScalars?_eq_none (.inl (BoundExpr.columnOf?_of_columnsOf? hleft))
      have hsecond : ofScalars? source op.flip right left = none :=
        ofScalars?_eq_none (.inr (BoundExpr.constant?_of_columnsOf? hleft))
      exact .inr ⟨hfirst, .inr ⟨hsecond, .inl h⟩⟩
    · obtain ⟨hright, -, -⟩ := ofRows?_eq_row_iff.1 h
      have hfirst : ofScalars? source op left right = none :=
        ofScalars?_eq_none (.inr (BoundExpr.constant?_of_columnsOf? hright))
      have hsecond : ofScalars? source op.flip right left = none :=
        ofScalars?_eq_none (.inl (BoundExpr.columnOf?_of_columnsOf? hright))
      have hthird : ofRows? source op left right = none :=
        ofRows?_eq_none (BoundExpr.constants?_of_columnsOf? hne hright)
      exact .inr ⟨hfirst, .inr ⟨hsecond, .inr ⟨hthird, h⟩⟩⟩

/-- A comparison restricts a column that it pairs with a constant. -/
theorem exists_onColumn?_ofComparison?_iff :
    (∃ a, ofComparison? source op left right = some a ∧ a.onColumn? position = some equality) ↔
      BoundExpr.pairsColumn source position left right ∧ op.equates? = some equality := by
  simp only [BoundExpr.pairsColumn, Bool.or_eq_true, Bool.and_eq_true, beq_iff_eq,
    Option.isSome_iff_exists]
  rw [BinaryOp.equates?_eq_some_iff_flip]
  constructor
  · rintro ⟨a, ha, hon⟩
    obtain ⟨restriction, value, rfl, hequality⟩ := onColumn?_eq_some_iff.1 hon
    rw [ofComparison?_eq_column_iff, ofScalars?_eq_column_iff, ofScalars?_eq_column_iff] at ha
    refine ⟨restriction, hequality, ?_⟩
    rcases ha with ⟨hcolumn, hop, hvalue⟩ | ⟨hcolumn, hop, hvalue⟩
    · exact .inl ⟨⟨hcolumn, value, hvalue⟩, hop⟩
    · exact .inr ⟨⟨hcolumn, value, hvalue⟩, hop⟩
  · rintro ⟨restriction, hequality, h⟩
    have hcompared : ∃ value,
        ofComparison? source op left right = some (.column position restriction value) := by
      simp only [ofComparison?_eq_column_iff, ofScalars?_eq_column_iff]
      rcases h with ⟨⟨hcolumn, value, hvalue⟩, hop⟩ | ⟨⟨hcolumn, value, hvalue⟩, hop⟩
      · exact ⟨value, .inl ⟨hcolumn, hop, hvalue⟩⟩
      · exact ⟨value, .inr ⟨hcolumn, hop, hvalue⟩⟩
    obtain ⟨value, ha⟩ := hcompared
    exact ⟨_, ha, onColumn?_eq_some_iff.2 ⟨restriction, value, rfl, hequality⟩⟩

/-- A comparison restricts a row of columns that it pairs with a row of constants. -/
theorem exists_onRow?_ofComparison?_iff (hne : positions ≠ []) :
    (∃ a, ofComparison? source op left right = some a ∧ a.onRow? positions = some equality) ↔
      BoundExpr.pairsRow source positions left right ∧ op.equates? = some equality := by
  simp only [BoundExpr.pairsRow, BoundExpr.isRowOfConstants, Bool.or_eq_true, Bool.and_eq_true,
    beq_iff_eq, Option.any_eq_true]
  rw [BinaryOp.equates?_eq_some_iff_flip]
  constructor
  · rintro ⟨a, ha, hon⟩
    obtain ⟨restriction, values, rfl, hequality⟩ := onRow?_eq_some_iff.1 hon
    rw [ofComparison?_eq_row_iff hne, ofRows?_eq_row_iff, ofRows?_eq_row_iff] at ha
    refine ⟨restriction, hequality, ?_⟩
    rcases ha with ⟨hcolumns, hop, hvalues, hlength⟩ | ⟨hcolumns, hop, hvalues, hlength⟩
    · exact .inl ⟨⟨hcolumns, values, hvalues, hlength.symm⟩, hop⟩
    · exact .inr ⟨⟨hcolumns, values, hvalues, hlength.symm⟩, hop⟩
  · rintro ⟨restriction, hequality, h⟩
    have hcompared : ∃ values,
        ofComparison? source op left right = some (.row positions restriction values) := by
      simp only [ofComparison?_eq_row_iff hne, ofRows?_eq_row_iff]
      rcases h with ⟨⟨hcolumns, values, hvalues, hlength⟩, hop⟩ |
        ⟨⟨hcolumns, values, hvalues, hlength⟩, hop⟩
      · exact ⟨values, .inl ⟨hcolumns, hop, hvalues, hlength.symm⟩⟩
      · exact ⟨values, .inr ⟨hcolumns, hop, hvalues, hlength.symm⟩⟩
    obtain ⟨values, ha⟩ := hcompared
    exact ⟨_, ha, onRow?_eq_some_iff.2 ⟨restriction, values, rfl, hequality⟩⟩

theorem exists_onColumn?_ofBetween_iff {operand low high : BoundExpr} :
    (∃ a ∈ ofBetween source operand low high, a.onColumn? position = some equality) ↔
      (operand.columnOf? source = some position ∧ low.constant?.isSome ∧ high.constant?.isSome) ∧
        false = equality := by
  unfold ofBetween
  split
  next p lo hi hp hlo hhi =>
    simp [onColumn?, hp, hlo, hhi, Restriction.isEquality]
  next hnone =>
    constructor
    · rintro ⟨a, ha, hon⟩
      obtain ⟨restriction, value, rfl, -⟩ := onColumn?_eq_some_iff.1 hon
      split at ha
      · rw [List.mem_append, Option.mem_toList, Option.mem_toList] at ha
        rcases ha with ha | ha
        · cases (eq_row_of_ofRow? ha).1
        · cases (eq_row_of_ofRow? ha).1
      · cases ha
    · rintro ⟨⟨hcolumn, hlow, hhigh⟩, -⟩
      obtain ⟨lo, hlo⟩ := Option.isSome_iff_exists.1 hlow
      obtain ⟨hi, hhi⟩ := Option.isSome_iff_exists.1 hhigh
      exact (hnone _ _ _ hcolumn hlo hhi).elim

theorem exists_onRow?_ofRow?_iff {p : List Nat} {values : List BoundValue} :
    (∃ a, ofRow? p restriction values = some a ∧ a.onRow? positions = some equality) ↔
      p = positions ∧ p.length = values.length ∧ restriction.isEquality = equality := by
  constructor
  · rintro ⟨a, ha, hon⟩
    obtain ⟨rfl, hlength⟩ := eq_row_of_ofRow? ha
    obtain ⟨_, _, heq, hequality⟩ := onRow?_eq_some_iff.1 hon
    cases heq
    exact ⟨rfl, hlength, hequality⟩
  · rintro ⟨rfl, hlength, hequality⟩
    exact ⟨_, if_pos hlength, onRow?_eq_some_iff.2 ⟨_, _, rfl, hequality⟩⟩

theorem exists_onRow?_ofBetween_iff {operand low high : BoundExpr} :
    (∃ a ∈ ofBetween source operand low high, a.onRow? positions = some equality) ↔
      (operand.columnsOf? source = some positions ∧ low.constants?.isSome ∧
        high.constants?.isSome ∧ (low.isRowOfConstants positions.length ∨
          high.isRowOfConstants positions.length)) ∧ false = equality := by
  unfold ofBetween
  split
  next p lo hi hp hlo hhi =>
    constructor
    · rintro ⟨a, ha, hon⟩
      obtain ⟨restriction, values, rfl, -⟩ := onRow?_eq_some_iff.1 hon
      simp at ha
    · rintro ⟨⟨hcolumns, -⟩, -⟩
      rw [BoundExpr.columnOf?_of_columnsOf? hcolumns] at hp
      cases hp
  next =>
    split
    next p lo hi hp hlo hhi =>
      have hlow : low.isRowOfConstants positions.length ↔ lo.length = positions.length := by
        simp [BoundExpr.isRowOfConstants, hlo]
      have hhigh : high.isRowOfConstants positions.length ↔ hi.length = positions.length := by
        simp [BoundExpr.isRowOfConstants, hhi]
      constructor
      · rintro ⟨a, ha, hon⟩
        rw [List.mem_append, Option.mem_toList, Option.mem_toList] at ha
        have hsome : low.constants?.isSome ∧ high.constants?.isSome := by simp [hlo, hhi]
        rcases ha with ha | ha
        · obtain ⟨rfl, hlength, hequality⟩ := exists_onRow?_ofRow?_iff.1 ⟨a, ha, hon⟩
          exact ⟨⟨hp, hsome.1, hsome.2, .inl (hlow.2 hlength.symm)⟩, hequality⟩
        · obtain ⟨rfl, hlength, hequality⟩ := exists_onRow?_ofRow?_iff.1 ⟨a, ha, hon⟩
          exact ⟨⟨hp, hsome.1, hsome.2, .inr (hhigh.2 hlength.symm)⟩, hequality⟩
      · rintro ⟨⟨hcolumns, -, -, hwidth⟩, hequality⟩
        rw [hp] at hcolumns
        cases hcolumns
        rcases hwidth with h | h
        · have hequality : (Restriction.atLeast true).isEquality = equality := hequality
          obtain ⟨a, ha, hon⟩ := exists_onRow?_ofRow?_iff.2 ⟨rfl, (hlow.1 h).symm, hequality⟩
          exact ⟨a, List.mem_append_left _ (Option.mem_toList.2 ha), hon⟩
        · have hequality : (Restriction.atMost true).isEquality = equality := hequality
          obtain ⟨a, ha, hon⟩ := exists_onRow?_ofRow?_iff.2 ⟨rfl, (hhigh.1 h).symm, hequality⟩
          exact ⟨a, List.mem_append_right _ (Option.mem_toList.2 ha), hon⟩
    next hnone =>
      constructor
      · rintro ⟨a, ha, -⟩
        cases ha
      · rintro ⟨⟨hcolumns, hlow, hhigh, -⟩, -⟩
        obtain ⟨lo, hlo⟩ := Option.isSome_iff_exists.1 hlow
        obtain ⟨hi, hhi⟩ := Option.isSome_iff_exists.1 hhigh
        exact (hnone _ _ _ hcolumns hlo hhi).elim

/-- The arguments of a conjunct restrict the columns that it compares. -/
theorem exists_onColumn?_iff {c : BoundExpr} :
    (∃ a ∈ ofConjunct source c, a.onColumn? position = some equality) ↔
      c.comparesColumn? source position = some equality := by
  unfold ofConjunct
  split
  next op left right =>
    simp only [Option.mem_toList]
    rw [exists_onColumn?_ofComparison?_iff, BoundExpr.comparesColumn?,
      Option.ite_none_right_eq_some]
  next operand low high =>
    rw [exists_onColumn?_ofBetween_iff, BoundExpr.comparesColumn?, Option.ite_none_right_eq_some]
    simp [and_assoc]
  next hbinary hbetween =>
    have hnone : c.comparesColumn? source position = none := by
      unfold BoundExpr.comparesColumn?
      split
      · exact (hbinary _ _ _ rfl).elim
      · exact (hbetween _ _ _ rfl).elim
      · rfl
    simp [hnone]

/-- The arguments of a conjunct restrict the rows of columns that it compares. -/
theorem exists_onRow?_iff (hne : positions ≠ []) {c : BoundExpr} :
    (∃ a ∈ ofConjunct source c, a.onRow? positions = some equality) ↔
      c.comparesRow? source positions = some equality := by
  unfold ofConjunct
  split
  next op left right =>
    simp only [Option.mem_toList]
    rw [exists_onRow?_ofComparison?_iff hne, BoundExpr.comparesRow?,
      Option.ite_none_right_eq_some]
  next operand low high =>
    rw [exists_onRow?_ofBetween_iff, BoundExpr.comparesRow?, Option.ite_none_right_eq_some]
    simp [and_assoc]
  next hbinary hbetween =>
    have hnone : c.comparesRow? source positions = none := by
      unfold BoundExpr.comparesRow?
      split
      · exact (hbinary _ _ _ rfl).elim
      · exact (hbetween _ _ _ rfl).elim
      · rfl
    simp [hnone]

/-- The first argument on a row of columns comes from the first conjunct that compares it. -/
theorem findSome?_onRow? (hne : positions ≠ []) (conjuncts : List BoundExpr) :
    (ofConjuncts source conjuncts).findSome? (·.onRow? positions) =
      conjuncts.findSome? (·.comparesRow? source positions) := by
  have hconjunct (c : BoundExpr) :
      (ofConjunct source c).findSome? (·.onRow? positions) = c.comparesRow? source positions := by
    refine Option.ext fun equality => ?_
    rw [← exists_onRow?_iff hne]
    constructor
    · exact List.exists_of_findSome?_eq_some
    · intro h
      -- all arguments of one conjunct on the row come from equalities, or none of them does
      obtain ⟨a, ha, hon⟩ := h
      have hsome : ((ofConjunct source c).findSome? (·.onRow? positions)).isSome :=
        List.findSome?_isSome_iff.2 ⟨a, ha, by rw [hon]; rfl⟩
      obtain ⟨first, hfirst⟩ := Option.isSome_iff_exists.1 hsome
      have hsame := (exists_onRow?_iff hne).1 (List.exists_of_findSome?_eq_some hfirst)
      rw [(exists_onRow?_iff hne).1 ⟨a, ha, hon⟩] at hsame
      rw [hfirst, hsame]
  unfold ofConjuncts
  induction conjuncts with
  | nil => rfl
  | cons c rest ih =>
      rw [List.flatMap_cons, List.findSome?_append, hconjunct, ih, List.findSome?_cons]
      cases c.comparesRow? source positions <;> rfl

theorem exists_onColumn?_ofConjuncts_iff {conjuncts : List BoundExpr} :
    (∃ a ∈ ofConjuncts source conjuncts, a.onColumn? position = some equality) ↔
      ∃ c ∈ conjuncts, c.comparesColumn? source position = some equality := by
  constructor
  · rintro ⟨a, ha, hon⟩
    obtain ⟨c, hc, ha⟩ := List.mem_flatMap.1 ha
    exact ⟨c, hc, exists_onColumn?_iff.1 ⟨a, ha, hon⟩⟩
  · rintro ⟨c, hc, hcompares⟩
    obtain ⟨a, ha, hon⟩ := exists_onColumn?_iff.2 hcompares
    exact ⟨a, List.mem_flatMap.2 ⟨c, hc, ha⟩, hon⟩

/-- There is a value that a column equals if a conjunct compares it by an equality. -/
theorem equal?_isSome_iff {conjuncts : List BoundExpr} :
    (equal? (ofConjuncts source conjuncts) position).isSome ↔
      ∃ c ∈ conjuncts, c.comparesColumn? source position = some true := by
  rw [← exists_onColumn?_ofConjuncts_iff, equal?, List.findSome?_isSome_iff]
  refine exists_congr fun a => and_congr_right fun _ => ?_
  cases a with
  | row => simp [onColumn?]
  | column p restriction value => cases restriction <;> simp [onColumn?, Restriction.isEquality]

/-- There is a value below or above a column if a conjunct compares it in another way. -/
theorem lower?_or_upper?_isSome_iff {conjuncts : List BoundExpr} :
    (lower? (ofConjuncts source conjuncts) position).isSome ∨
        (upper? (ofConjuncts source conjuncts) position).isSome ↔
      ∃ c ∈ conjuncts, c.comparesColumn? source position = some false := by
  rw [← exists_onColumn?_ofConjuncts_iff, lower?, upper?, List.findSome?_isSome_iff,
    List.findSome?_isSome_iff, ← exists_or]
  refine exists_congr fun a => ?_
  rw [← and_or_left]
  refine and_congr_right fun _ => ?_
  cases a with
  | row => simp [onColumn?]
  | column p restriction value => cases restriction <;> simp [onColumn?, Restriction.isEquality]

end SearchArgument

/-! ## The interval of a row -/

namespace RowInterval

variable {arguments : List SearchArgument} {positions : List Nat} {equality : Bool}

/-- Whether an interval has an end. -/
def hasEnd (r : RowInterval) : Bool := r.lower.isSome || r.upper.isSome

/-- The interval with what an argument says of the row. -/
def narrow (positions : List Nat) (r : RowInterval) : SearchArgument → RowInterval
  | .row p restriction values => if p = positions then r.restrict restriction values else r
  | .column .. => r

theorem ofArguments_eq_foldl :
    ofArguments arguments positions = arguments.foldl (narrow positions) { positions } := rfl

theorem positions_narrow (r : RowInterval) (a : SearchArgument) :
    (narrow positions r a).positions = r.positions := by
  cases a with
  | column => rfl
  | row p restriction values =>
      unfold narrow
      dsimp only
      split
      · exact positions_restrict r restriction values
      · rfl

theorem positions_ofArguments : (ofArguments arguments positions).positions = positions := by
  rw [ofArguments_eq_foldl]
  refine List.foldlRecOn (motive := fun r : RowInterval => r.positions = positions) arguments _
    rfl fun r hr a _ => ?_
  rw [positions_narrow, hr]

/-- An interval that has an end keeps one, and an equality comes too late. -/
theorem hasEnd_narrow {r : RowInterval} (hend : r.hasEnd) (a : SearchArgument) :
    (narrow positions r a).hasEnd ∧ (narrow positions r a).exact = r.exact := by
  cases a with
  | column => exact ⟨hend, rfl⟩
  | row p restriction values =>
      unfold narrow
      dsimp only
      split
      next =>
        cases restriction with
        | exactly =>
            have hsome : (r.lower.isNone && r.upper.isNone) = false := by
              unfold hasEnd at hend
              cases hlower : r.lower <;> cases hupper : r.upper <;> simp_all
            unfold restrict
            dsimp only
            rw [hsome]
            exact ⟨hend, rfl⟩
        | atLeast inclusive => exact ⟨by simp [hasEnd, restrict], rfl⟩
        | atMost inclusive => exact ⟨by simp [hasEnd, restrict], rfl⟩
      next => exact ⟨hend, rfl⟩

/-- The first argument on the row gives its interval an end. -/
theorem hasEnd_narrow_of_onRow? {a : SearchArgument} (h : a.onRow? positions = some equality) :
    (narrow positions { positions } a).hasEnd ∧
      (narrow positions { positions } a).exact = equality := by
  obtain ⟨restriction, values, rfl, hequality⟩ := SearchArgument.onRow?_eq_some_iff.1 h
  unfold narrow
  dsimp only
  rw [if_pos rfl]
  cases restriction <;> exact ⟨rfl, hequality⟩

theorem narrow_of_onRow?_eq_none {a : SearchArgument} (h : a.onRow? positions = none)
    (r : RowInterval) : narrow positions r a = r := by
  cases a with
  | column => rfl
  | row p restriction values =>
      unfold narrow
      dsimp only
      split
      next hp => simp [SearchArgument.onRow?, hp] at h
      next => rfl

/-- The first argument on a row decides whether its interval comes from an equality. -/
theorem ofArguments_of_findSome?
    (h : arguments.findSome? (·.onRow? positions) = some equality) :
    (ofArguments arguments positions).hasEnd ∧
      (ofArguments arguments positions).exact = equality := by
  obtain ⟨before, a, behind, rfl, ha, hbefore⟩ := List.findSome?_eq_some_iff.1 h
  have hskip : before.foldl (narrow positions) { positions } = { positions } :=
    List.foldlRecOn
      (motive := fun r : RowInterval => r = { positions }) before _ rfl fun r hr b hb => by
        rw [narrow_of_onRow?_eq_none (hbefore b hb), hr]
  rw [ofArguments_eq_foldl, List.foldl_append, hskip, List.foldl_cons]
  refine List.foldlRecOn (motive := fun r : RowInterval => r.hasEnd ∧ r.exact = equality) behind _
    (hasEnd_narrow_of_onRow? ha) fun r hr b _ => ?_
  have hkept : (narrow positions r b).hasEnd ∧ (narrow positions r b).exact = r.exact :=
    hasEnd_narrow hr.1 b
  exact ⟨hkept.1, hkept.2.trans hr.2⟩

theorem mem_all_iff {r : RowInterval} :
    r ∈ all arguments ↔ ∃ positions equality,
      arguments.findSome? (·.onRow? positions) = some equality ∧
        r = ofArguments arguments positions := by
  unfold all
  rw [List.mem_map]
  constructor
  · rintro ⟨positions, hpositions, rfl⟩
    obtain ⟨a, ha, hrow⟩ := List.mem_filterMap.1 (List.mem_eraseDups.1 hpositions)
    cases a with
    | column => cases hrow
    | row p restriction values =>
        cases hrow
        have hsome : (arguments.findSome? (·.onRow? positions)).isSome :=
          List.findSome?_isSome_iff.2 ⟨_, ha, by simp [SearchArgument.onRow?]⟩
        obtain ⟨equality, h⟩ := Option.isSome_iff_exists.1 hsome
        exact ⟨positions, equality, h, rfl⟩
  · rintro ⟨positions, equality, h, rfl⟩
    obtain ⟨a, ha, hon⟩ := List.exists_of_findSome?_eq_some h
    obtain ⟨restriction, values, rfl, -⟩ := SearchArgument.onRow?_eq_some_iff.1 hon
    exact ⟨positions, List.mem_eraseDups.2 (List.mem_filterMap.2 ⟨_, ha, rfl⟩), rfl⟩

end RowInterval

end QueryPlanner
