import QueryPlanner.AccessPath.Choice
import QueryPlanner.Proofs.AccessPath.Bounds
import QueryPlanner.Proofs.AccessPath.Conjunct

/-!
# Candidates without errors

The bounds of a candidate are values for the first fields of its index, as many in both of its ends
when there are two.  The check of their shape therefore never refuses them, and choosing a range is
a plain function of the search arguments (`chooseRange_eq`).

A row interval keeps where its ends come from: from one equality, or from one restriction each.
-/

namespace QueryPlanner

/-! ## Where the ends of a row come from -/

namespace RowInterval

/-- Every end of an interval comes from an argument on the same row: both from one equality, or each
from a restriction of its kind. -/
inductive ComesFrom (arguments : List SearchArgument) (r : RowInterval) : Prop where
  | equality (values : List BoundValue) (exact : r.exact = true)
      (mem : .row r.positions .exactly values ∈ arguments)
      (lower : r.lower = some (values, true)) (upper : r.upper = some (values, true))
  | ends (exact : r.exact = false)
      (lower : ∀ e ∈ r.lower, .row r.positions (.atLeast e.2) e.1 ∈ arguments)
      (upper : ∀ e ∈ r.upper, .row r.positions (.atMost e.2) e.1 ∈ arguments)

@[simp] theorem positions_restrict (r : RowInterval) (restriction : Restriction)
    (values : List BoundValue) : (r.restrict restriction values).positions = r.positions := by
  cases restriction with
  | exactly =>
      unfold restrict
      dsimp only
      split <;> rfl
  | atLeast => rfl
  | atMost => rfl

theorem ComesFrom.restrict {arguments : List SearchArgument} {r : RowInterval}
    (h : r.ComesFrom arguments) {restriction : Restriction} {values : List BoundValue}
    (hmem : .row r.positions restriction values ∈ arguments) :
    (r.restrict restriction values).ComesFrom arguments := by
  cases restriction with
  | exactly =>
      unfold RowInterval.restrict
      dsimp only
      split
      next => exact .equality values rfl hmem rfl rfl
      next => exact h
  | atLeast inclusive =>
      cases h with
      | equality values' exact mem lower upper =>
          exact .equality values' exact mem (by simp [RowInterval.restrict, lower]) upper
      | ends exact lower upper =>
          refine .ends exact (fun e he => ?_) upper
          rcases Option.or_eq_some_iff.1 he with he | ⟨-, he⟩
          · exact lower e he
          · cases he
            exact hmem
  | atMost inclusive =>
      cases h with
      | equality values' exact mem lower upper =>
          exact .equality values' exact mem lower (by simp [RowInterval.restrict, upper])
      | ends exact lower upper =>
          refine .ends exact lower fun e he => ?_
          rcases Option.or_eq_some_iff.1 he with he | ⟨-, he⟩
          · exact upper e he
          · cases he
            exact hmem

/-- The interval of a row, by induction on the arguments that restrict it. -/
theorem comesFrom_ofArguments (arguments : List SearchArgument) (positions : List Nat) :
    (ofArguments arguments positions).ComesFrom arguments := by
  have hkeep : (ofArguments arguments positions).positions = positions ∧
      (ofArguments arguments positions).ComesFrom arguments := by
    unfold ofArguments
    refine List.foldlRecOn
      (motive := fun r : RowInterval => r.positions = positions ∧ r.ComesFrom arguments)
      arguments _ ⟨rfl, .ends rfl (by simp) (by simp)⟩ ?_
    rintro r ⟨hpositions, hr⟩ a ha
    cases a with
    | column => exact ⟨hpositions, hr⟩
    | row p restriction values =>
        dsimp only
        split
        next hp =>
          refine ⟨by simpa using hpositions, hr.restrict ?_⟩
          rw [hpositions, ← hp]
          exact ha
        next => exact ⟨hpositions, hr⟩
  exact hkeep.2

theorem ComesFrom.length_lower {arguments : List SearchArgument} {r : RowInterval}
    (h : r.ComesFrom arguments) (heven : ∀ a ∈ arguments, a.IsEven) :
    ∀ e ∈ r.lower, e.1.length = r.positions.length := by
  intro e he
  cases h with
  | equality values exact mem lower upper =>
      rw [lower] at he
      cases he
      exact (heven _ mem).symm
  | ends exact lower upper => exact (heven _ (lower e he)).symm

theorem ComesFrom.length_upper {arguments : List SearchArgument} {r : RowInterval}
    (h : r.ComesFrom arguments) (heven : ∀ a ∈ arguments, a.IsEven) :
    ∀ e ∈ r.upper, e.1.length = r.positions.length := by
  intro e he
  cases h with
  | equality values exact mem lower upper =>
      rw [upper] at he
      cases he
      exact (heven _ mem).symm
  | ends exact lower upper => exact (heven _ (upper e he)).symm

theorem comesFrom_of_mem_all {arguments : List SearchArgument} {r : RowInterval}
    (h : r ∈ all arguments) : r.ComesFrom arguments := by
  obtain ⟨positions, -, rfl⟩ := List.mem_map.1 h
  exact comesFrom_ofArguments arguments positions

end RowInterval

namespace Candidate

/-! ## Ranges between leading bounds -/

/-- The end of a range that binds the first fields. -/
def leadingEnd (e : List BoundValue × Bool) : RangeEnd := ⟨.ofLeading e.1, e.2⟩

/-- The range between ends that bind the first `width` fields. -/
def rangeBetween (index : Index) (lower upper : Option (List BoundValue × Bool)) (width : Nat) :
    KeyRange :=
  { index, lo := lower.map leadingEnd, hi := upper.map leadingEnd, boundColumns := width }

/-- Ends that bind the same number of first fields make a range. -/
theorem ofEnds_leadingEnd {index : Index} {lower upper : Option (List BoundValue × Bool)}
    {width : Nat} (hwidth : width ≤ index.degree) (hlower : ∀ e ∈ lower, e.1.length = width)
    (hupper : ∀ e ∈ upper, e.1.length = width)
    (hsome : (lower.isNone && upper.isNone) = false) :
    KeyRange.ofEnds index (lower.map leadingEnd) (upper.map leadingEnd) =
      .ok (rangeBetween index lower upper width) := by
  have hleading {ends : Option (List BoundValue × Bool)}
      (hlength : ∀ e ∈ ends, e.1.length = width) {b : IndexBound}
      (hb : (ends.map leadingEnd).map (·.bound) = some b) :
      KeyRange.SelectsFirst index.degree width b ∧ b.values.length = width := by
    rw [Option.map_map] at hb
    obtain ⟨e, he, rfl⟩ := Option.map_eq_some_iff.1 hb
    obtain rfl := hlength e he
    exact ⟨KeyRange.selectsFirst_ofLeading hwidth, rfl⟩
  have hbound : ∃ b, (lower.map leadingEnd).map (·.bound) = some b ∨
      (upper.map leadingEnd).map (·.bound) = some b := by
    rcases lower with - | lo
    · rcases upper with - | hi
      · cases hsome
      · exact ⟨_, .inr rfl⟩
    · exact ⟨_, .inl rfl⟩
  have hfields := (KeyRange.boundFields_eq_ok_iff_selectsFirst hbound).2 fun b hb =>
    hb.elim (hleading hlower) (hleading hupper)
  rw [KeyRange.ofEnds, hfields]
  rfl

/-! ## The candidate of single columns -/

/-- The candidate that single columns give, without the check of its shape. -/
def columns? (arguments : List SearchArgument) (index : Index) : Option Candidate :=
  let fixed := fixedValues arguments index.fields
  let next := index.fields[fixed.length]?
  let lower := next.bind fun field => SearchArgument.lower? arguments field.columnPosition
  let upper := next.bind fun field => SearchArgument.upper? arguments field.columnPosition
  if lower.isNone && upper.isNone then
    if fixed.isEmpty then none
    else
      some ⟨(rangeBetween index (some (fixed, true)) (some (fixed, true)) fixed.length).settle,
        fixed.length⟩
  else
    let extend : BoundValue × Bool → List BoundValue × Bool := fun (value, inclusive) =>
      (fixed ++ [value], inclusive)
    some ⟨(rangeBetween index (lower.map extend) (upper.map extend) (fixed.length + 1)).settle,
      fixed.length⟩

theorem length_fixedValues_le (arguments : List SearchArgument) (fields : List IndexField) :
    (fixedValues arguments fields).length ≤ fields.length := by
  induction fields with
  | nil => simp [fixedValues]
  | cons field rest ih =>
      unfold fixedValues
      split <;> simp
      exact ih

/-- The candidate of single columns never fails: its ends bind the run of equalities, and one more
field if there is one. -/
theorem ofColumns_eq (arguments : List SearchArgument) (index : Index) :
    ofColumns arguments index = .ok (columns? arguments index) := by
  unfold ofColumns columns?
  have hle : (fixedValues arguments index.fields).length ≤ index.degree :=
    length_fixedValues_le arguments index.fields
  generalize fixedValues arguments index.fields = fixed at hle
  dsimp only
  generalize hnext : index.fields[fixed.length]? = next
  generalize hlo : (next.bind fun field => SearchArgument.lower? arguments field.columnPosition) =
    lower
  generalize hhi : (next.bind fun field => SearchArgument.upper? arguments field.columnPosition) =
    upper
  cases hnone : lower.isNone && upper.isNone with
  | true =>
      cases hempty : fixed.isEmpty with
      | true => rfl
      | false =>
          have hrange : KeyRange.ofEnds index (some ⟨.ofLeading fixed, true⟩)
              (some ⟨.ofLeading fixed, true⟩) =
              .ok (rangeBetween index (some (fixed, true)) (some (fixed, true)) fixed.length) :=
            @ofEnds_leadingEnd index (some (fixed, true)) (some (fixed, true)) _ hle (by simp)
              (by simp) rfl
          show (KeyRange.ofEnds index _ _ >>= _) = _
          rw [hrange]
          rfl
  | false =>
      have hlt : fixed.length < index.degree := by
        cases next with
        | none =>
            rw [← hlo, ← hhi] at hnone
            cases hnone
        | some field => exact (List.getElem?_eq_some_iff.1 hnext).1
      -- Both ends bind one field behind the run of equalities.
      have hlength (e : Option (BoundValue × Bool)) :
          ∀ x ∈ e.map fun (value, inclusive) => (fixed ++ [value], inclusive),
            x.1.length = fixed.length + 1 := by
        intro x hx
        obtain ⟨y, -, rfl⟩ := Option.map_eq_some_iff.1 hx
        simp
      have hrange := ofEnds_leadingEnd hlt (hlength lower) (hlength upper) (by simpa using hnone)
      rw [Option.map_map, Option.map_map] at hrange
      show (KeyRange.ofEnds index _ _ >>= _) = _
      exact congrArg (· >>= _) hrange

/-! ## The candidate of a row -/

/-- The candidate that a row of columns gives, without the check of its shape. -/
def row? (index : Index) (row : RowInterval) : Option Candidate :=
  let width := row.positions.length
  let range := rangeBetween index row.lower row.upper width
  if width = 0 || (index.fields.map (·.columnPosition)).take width != row.positions then none
  else if row.lower.isNone && row.upper.isNone then none
  else if row.lower.isNone || row.upper.isNone then
    some ⟨{ range with lexicographic := decide (1 < width) }, 0⟩
  else some ⟨range.settle, if row.exact then width else 0⟩

theorem length_le_degree {index : Index} {positions : List Nat}
    (htake : (index.fields.map (·.columnPosition)).take positions.length = positions) :
    positions.length ≤ index.degree := by
  have hlength := congrArg List.length htake
  rw [List.length_take, List.length_map] at hlength
  unfold Index.degree
  omega

/-- The candidate of a row never fails, if the ends of the row have a value for each column. -/
theorem ofRow_eq {index : Index} {row : RowInterval}
    (hlower : ∀ e ∈ row.lower, e.1.length = row.positions.length)
    (hupper : ∀ e ∈ row.upper, e.1.length = row.positions.length) :
    ofRow index row = .ok (row? index row) := by
  unfold ofRow row?
  dsimp only
  split
  next => rfl
  next hleading =>
    split
    next => rfl
    next hsome =>
      have htake : (index.fields.map (·.columnPosition)).take row.positions.length =
          row.positions := by
        simp only [Bool.or_eq_true, not_or, bne_iff_ne, ne_eq, Decidable.not_not] at hleading
        exact hleading.2
      have hrange :=
        ofEnds_leadingEnd (length_le_degree htake) hlower hupper (eq_false_of_ne_true hsome)
      show (KeyRange.ofEnds index (row.lower.map leadingEnd) (row.upper.map leadingEnd) >>= _) = _
      rw [hrange]
      split <;> rfl

/-! ## The choice -/

/-- The candidates on an index, without the check of their shapes. -/
def allOn (arguments : List SearchArgument) (index : Index) : List Candidate :=
  (columns? arguments index).toList ++ (RowInterval.all arguments).filterMap (row? index)

theorem mapM_eq_ok_map {α β : Type} {f : α → Except PlanError β} {g : α → β} {l : List α}
    (h : ∀ a ∈ l, f a = .ok (g a)) : l.mapM f = .ok (l.map g) := by
  induction l with
  | nil => rfl
  | cons a l ih =>
      rw [List.forall_mem_cons] at h
      rw [List.mapM_cons, h.1, ih h.2]
      rfl

theorem onIndex_eq {arguments : List SearchArgument} (heven : ∀ a ∈ arguments, a.IsEven)
    (index : Index) : onIndex arguments index = .ok (allOn arguments index) := by
  have hrows : (RowInterval.all arguments).mapM (ofRow index) =
      .ok ((RowInterval.all arguments).map (row? index)) := by
    refine mapM_eq_ok_map fun r hr => ?_
    have hfrom := RowInterval.comesFrom_of_mem_all hr
    exact ofRow_eq (hfrom.length_lower heven) (hfrom.length_upper heven)
  unfold onIndex
  rw [ofColumns_eq, hrows]
  show Except.ok ((columns? arguments index).toList ++
    (List.map (row? index) (RowInterval.all arguments)).filterMap id) = _
  rw [List.filterMap_map]
  rfl

theorem mem_of_best? {candidates : List Candidate} {c : Candidate}
    (h : best? candidates = some c) : c ∈ candidates := by
  revert h
  unfold best?
  refine List.foldlRecOn (motive := fun best => best = some c → c ∈ candidates) candidates _
    (by simp) fun best hbest a ha => ?_
  cases best with
  | none =>
      intro h
      cases h
      exact ha
  | some b =>
      dsimp only
      split
      next =>
        intro h
        cases h
        exact ha
      next => exact hbest

end Candidate

/-! ## Choosing a range -/

/-- The search arguments of conjuncts. -/
def SearchArgument.ofConjuncts (source : Nat) (conjuncts : List BoundExpr) : List SearchArgument :=
  conjuncts.flatMap (ofConjunct source)

theorem SearchArgument.isEven_of_mem_ofConjuncts {source : Nat} {conjuncts : List BoundExpr}
    {a : SearchArgument} (h : a ∈ ofConjuncts source conjuncts) : a.IsEven := by
  obtain ⟨c, -, hc⟩ := List.mem_flatMap.1 h
  exact isEven_of_mem_ofConjunct hc

/-- Choosing a range never fails. -/
theorem chooseRange_eq (t : Table) (source : Nat) (conjuncts : List BoundExpr) :
    chooseRange t source conjuncts =
      .ok ((Candidate.best? (t.indexes.flatMap
        (Candidate.allOn (SearchArgument.ofConjuncts source conjuncts)))).map (·.range)) := by
  have heven : ∀ a ∈ SearchArgument.ofConjuncts source conjuncts, a.IsEven :=
    fun _ => SearchArgument.isEven_of_mem_ofConjuncts
  have hindexes : t.indexes.mapM (Candidate.onIndex (SearchArgument.ofConjuncts source conjuncts)) =
      .ok (t.indexes.map (Candidate.allOn (SearchArgument.ofConjuncts source conjuncts))) :=
    Candidate.mapM_eq_ok_map fun index _ => Candidate.onIndex_eq heven index
  unfold chooseRange
  show (t.indexes.mapM (Candidate.onIndex (SearchArgument.ofConjuncts source conjuncts)) >>= _) = _
  rw [hindexes, List.flatMap_def]
  rfl

end QueryPlanner
