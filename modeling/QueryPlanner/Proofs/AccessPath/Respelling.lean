import Mathlib.Logic.Relation
import QueryPlanner.Proofs.AccessPath.Compared
import QueryPlanner.Proofs.AccessPath.Exactness
import QueryPlanner.Proofs.Typing.Rules

/-!
# Spellings of conjuncts

A comparison may be written with its operands exchanged, and a test for a range as the comparisons
with its two bounds.  The search arguments are the same in every spelling and come in the same order
(`map_plain_of_respells`), with one exception: a comparison of two empty rows says nothing of any
index, but it says it of the row on its left.  What is said of a row without columns does not matter
to the candidates (`allOn_map_plain`).

The bounds of a test for a range have to be alike: both rows, or neither.  A test with a constant on
one side and a row of constants on the other says nothing of its operand, while a comparison with
one of the two bounds alone may (`chooseRange_divided_unlike`).  No predicate with such a test gets
a plan, since it compares a row with what is no row (`refused_of_unlike`).

Main statement: `chooseRange_respelled`.
-/

namespace QueryPlanner

/-! ## Other spellings -/

namespace BoundExpr

/-- A literal other than `NULL`, a placeholder, or a row of these. -/
def IsConstant (e : BoundExpr) : Prop := e.constant?.isSome ∨ e.constants?.isSome

/-- Conjuncts that say together what one conjunct says. -/
inductive Respells : BoundExpr → List BoundExpr → Prop where
  /-- `left < right` is `right > left`, and likewise for every comparison. -/
  | exchange (op : BinaryOp) (comparison : op.group = .comparison) (left right : BoundExpr) :
      Respells (.binary op left right) [.binary op.flip right left]
  /-- `operand BETWEEN low AND high` is `operand >= low` and `operand <= high`, if both bounds are
  rows or neither is. -/
  | divide (operand low high : BoundExpr) (lowConstant : low.IsConstant)
      (highConstant : high.IsConstant) (alike : low.isRow = high.isRow) :
      Respells (.between operand low high false)
        [.binary .gtEq operand low, .binary .ltEq operand high]

end BoundExpr

/-- Conjuncts one of which is spelled in another way, where it stands. -/
inductive RespelledOnce : List BoundExpr → List BoundExpr → Prop where
  | step {c : BoundExpr} {spelling : List BoundExpr} (before behind : List BoundExpr)
      (respells : c.Respells spelling) :
      RespelledOnce (before ++ c :: behind) (before ++ spelling ++ behind)

/-! ## Rows without columns -/

namespace SearchArgument

/-- The argument, or a fixed one if it is about the row without columns. -/
def plain : SearchArgument → SearchArgument
  | .row [] _ _ => .row [] .exactly []
  | a => a

variable (arguments : List SearchArgument)

theorem plain_of_ne {positions : List Nat} (h : positions ≠ []) (restriction : Restriction)
    (values : List BoundValue) :
    plain (.row positions restriction values) = .row positions restriction values := by
  cases positions with
  | nil => exact absurd rfl h
  | cons => rfl

/-- What is found among the restrictions of single columns is the same. -/
theorem findSome?_map_plain {β : Type} {f : SearchArgument → Option β}
    (h : ∀ positions restriction values, f (.row positions restriction values) = none) :
    (arguments.map plain).findSome? f = arguments.findSome? f := by
  rw [List.findSome?_map]
  congr 1
  funext a
  cases a with
  | column => rfl
  | row positions restriction values =>
      cases positions with
      | nil => exact (h _ _ _).trans (h _ _ _).symm
      | cons => rfl

end SearchArgument

namespace RowInterval

open SearchArgument (plain plain_of_ne)

theorem ofArguments_map_plain {positions : List Nat} (h : positions ≠ [])
    (arguments : List SearchArgument) :
    ofArguments (arguments.map plain) positions = ofArguments arguments positions := by
  rw [ofArguments_eq_foldl, ofArguments_eq_foldl, List.foldl_map]
  congr 1
  funext r a
  cases a with
  | column => rfl
  | row p restriction values =>
      by_cases hp : p = []
      · subst hp
        exact (if_neg h.symm).trans (if_neg h.symm).symm
      · rw [plain_of_ne hp]

end RowInterval

namespace Candidate

open SearchArgument (plain)

variable (arguments : List SearchArgument)

theorem fixedValues_map_plain (fields : List IndexField) :
    fixedValues (arguments.map plain) fields = fixedValues arguments fields := by
  induction fields with
  | nil => rfl
  | cons field rest ih =>
      have hequal : SearchArgument.equal? (arguments.map plain) field.columnPosition =
          SearchArgument.equal? arguments field.columnPosition :=
        SearchArgument.findSome?_map_plain arguments fun _ _ _ => rfl
      rw [fixedValues, fixedValues, hequal, ih]

theorem row?_of_positions_eq_nil {index : Index} {row : RowInterval} (h : row.positions = []) :
    row? index row = none := by
  unfold row?
  rw [h]
  rfl

theorem columns?_map_plain (index : Index) :
    columns? (arguments.map plain) index = columns? arguments index := by
  have hlower (position : Nat) : SearchArgument.lower? (arguments.map plain) position =
      SearchArgument.lower? arguments position :=
    SearchArgument.findSome?_map_plain arguments fun _ _ _ => rfl
  have hupper (position : Nat) : SearchArgument.upper? (arguments.map plain) position =
      SearchArgument.upper? arguments position :=
    SearchArgument.findSome?_map_plain arguments fun _ _ _ => rfl
  unfold columns?
  simp only [fixedValues_map_plain, hlower, hupper]

theorem row?_map_plain (index : Index) (positions : List Nat) :
    row? index (.ofArguments (arguments.map plain) positions) =
      row? index (.ofArguments arguments positions) := by
  by_cases h : positions = []
  · rw [row?_of_positions_eq_nil, row?_of_positions_eq_nil] <;>
      rw [RowInterval.positions_ofArguments, h]
  · rw [RowInterval.ofArguments_map_plain h]

/-- What is said of the row without columns does not matter. -/
theorem allOn_map_plain (index : Index) :
    allOn (arguments.map plain) index = allOn arguments index := by
  have hrows : (RowInterval.all (arguments.map plain)).filterMap (row? index) =
      (RowInterval.all arguments).filterMap (row? index) := by
    unfold RowInterval.all
    dsimp only
    rw [List.filterMap_map, List.filterMap_map, List.filterMap_map]
    congr 1
    · exact funext (row?_map_plain arguments index)
    · congr 2
      funext a
      cases a with
      | column => rfl
      | row p restriction values => cases p <;> rfl
  unfold allOn
  rw [columns?_map_plain, hrows]

end Candidate

/-! ## Search arguments in other spellings -/

namespace BoundExpr

theorem eq_nil_of_mapM {α β : Type} {f : α → Option β} {l : List α} (h : l.mapM f = some []) :
    l = [] := by
  cases l with
  | nil => rfl
  | cons a l => simp [List.mapM_cons, Option.bind_eq_some_iff] at h

theorem eq_row_nil_of_columnsOf? {source : Nat} {e : BoundExpr}
    (h : e.columnsOf? source = some []) : e = .row [] := by
  cases e with
  | row items => rw [eq_nil_of_mapM h]
  | _ => cases h

theorem eq_row_nil_of_constants? {e : BoundExpr} (h : e.constants? = some []) : e = .row [] := by
  cases e with
  | row items => rw [eq_nil_of_mapM h]
  | _ => cases h

end BoundExpr

namespace SearchArgument

variable {source : Nat} {op op' : BinaryOp} {left right : BoundExpr}

/-- A column is not compared with another one. -/
theorem ofScalars?_eq_none_or (source : Nat) (op op' : BinaryOp) (left right : BoundExpr) :
    ofScalars? source op left right = none ∨ ofScalars? source op' right left = none := by
  cases h : left.columnOf? source with
  | none => exact .inl (ofScalars?_eq_none (.inl h))
  | some position => exact .inr (ofScalars?_eq_none (.inr (BoundExpr.constant?_of_columnOf? h)))

theorem exists_of_ofRows? {a : SearchArgument} (h : ofRows? source op left right = some a) :
    ∃ positions restriction values, a = .row positions restriction values ∧
      left.columnsOf? source = some positions ∧ right.constants? = some values := by
  obtain ⟨positions, hcolumns, h⟩ := Option.bind_eq_some_iff.1 h
  obtain ⟨restriction, -, h⟩ := Option.bind_eq_some_iff.1 h
  obtain ⟨values, hvalues, h⟩ := Option.bind_eq_some_iff.1 h
  obtain ⟨rfl, -⟩ := eq_row_of_ofRow? h
  exact ⟨positions, restriction, values, rfl, hcolumns, hvalues⟩

/-- A row is compared with another one only if neither has columns. -/
theorem plain_eq_of_ofRows? {a b : SearchArgument} (ha : ofRows? source op left right = some a)
    (hb : ofRows? source op' right left = some b) : a.plain = b.plain := by
  obtain ⟨positions, restriction, values, rfl, hleft, hright⟩ := exists_of_ofRows? ha
  obtain ⟨positions', restriction', values', rfl, hright', hleft'⟩ := exists_of_ofRows? hb
  obtain rfl : positions = [] := by
    by_contra hne
    rw [BoundExpr.constants?_of_columnsOf? hne hleft] at hleft'
    cases hleft'
  obtain rfl : positions' = [] := by
    by_contra hne
    rw [BoundExpr.constants?_of_columnsOf? hne hright'] at hright
    cases hright
  rfl

theorem map_plain_ofComparison?_flip (source : Nat) (op : BinaryOp) (left right : BoundExpr) :
    (ofComparison? source op.flip right left).map plain =
      (ofComparison? source op left right).map plain := by
  unfold ofComparison?
  rw [BinaryOp.flip_flip]
  have hscalars : (ofScalars? source op.flip right left).or (ofScalars? source op left right) =
      (ofScalars? source op left right).or (ofScalars? source op.flip right left) := by
    rcases ofScalars?_eq_none_or source op op.flip left right with h | h <;> simp [h]
  have hrows : ((ofRows? source op.flip right left).or (ofRows? source op left right)).map plain =
      ((ofRows? source op left right).or (ofRows? source op.flip right left)).map plain := by
    cases ha : ofRows? source op left right with
    | none => simp
    | some a =>
        cases hb : ofRows? source op.flip right left with
        | none => rfl
        | some b => exact congrArg some (plain_eq_of_ofRows? ha hb).symm
  simp only [Option.orElse_eq_orElse, Option.orElse_eq_or, ← Option.or_assoc]
  rw [hscalars, Option.or_assoc, Option.map_or, hrows, ← Option.map_or, ← Option.or_assoc]

/-- What a comparison with a constant that is no row says of its operand. -/
theorem ofComparison?_constant {value : BoundValue} (h : right.constant? = some value) :
    ofComparison? source op left right = ofScalars? source op left right := by
  obtain ⟨hcolumn, hcolumns, hrow⟩ : right.columnOf? source = none ∧
      right.columnsOf? source = none ∧ right.constants? = none := by
    cases right with
    | literal | parameter => exact ⟨rfl, rfl, rfl⟩
    | _ => cases h
  have hreverse : ofRows? source op.flip right left = none := by
    unfold ofRows?
    rw [hcolumns]
    rfl
  unfold ofComparison?
  rw [ofScalars?_eq_none (.inl hcolumn), ofRows?_eq_none hrow, hreverse]
  cases ofScalars? source op left right <;> rfl

/-- What a comparison with a row of constants says of its operand. -/
theorem ofComparison?_constants {values : List BoundValue} {restriction : Restriction}
    (h : right.constants? = some values) (hop : op.restriction? = some restriction) :
    ofComparison? source op left right = ofRows? source op left right := by
  obtain ⟨items, rfl⟩ : ∃ items, right = .row items := by
    cases right with
    | row items => exact ⟨items, rfl⟩
    | _ => cases h
  -- the operand could be the row of constants only if both rows were empty
  have hreverse (hrows : ofRows? source op left (.row items) = none) :
      ofRows? source op.flip (.row items) left = none := by
    refine Option.eq_none_iff_forall_ne_some.2 fun b hb => ?_
    obtain ⟨positions, restriction', values', rfl, hcolumns, hleft⟩ := exists_of_ofRows? hb
    obtain ⟨-, -, -, hlength⟩ := ofRows?_eq_row_iff.1 hb
    obtain rfl : positions = [] := by
      by_contra hne
      rw [BoundExpr.constants?_of_columnsOf? hne hcolumns] at h
      cases h
    obtain rfl : values' = [] := List.length_eq_zero_iff.1 hlength.symm
    rw [BoundExpr.eq_row_nil_of_columnsOf? hcolumns, BoundExpr.eq_row_nil_of_constants? hleft,
      ofRows?_eq_row_iff.2 ⟨rfl, hop, rfl, rfl⟩] at hrows
    cases hrows
  unfold ofComparison?
  rw [ofScalars?_eq_none (.inr rfl), ofScalars?_eq_none (.inl rfl)]
  cases hrows : ofRows? source op left (.row items) with
  | none =>
      rw [hreverse hrows]
      rfl
  | some a => rfl

/-- A test for a range says what the comparisons with its bounds say. -/
theorem ofBetween_eq {operand low high : BoundExpr} (hlow : low.IsConstant)
    (hhigh : high.IsConstant) (halike : low.isRow = high.isRow) :
    ofBetween source operand low high =
      (ofComparison? source .gtEq operand low).toList ++
        (ofComparison? source .ltEq operand high).toList := by
  have hscalar {e : BoundExpr} (h : e.constant?.isSome) :
      e.isRow = false ∧ e.constants? = none := by
    cases e with
    | row items => cases h
    | _ => exact ⟨rfl, rfl⟩
  have hrow {e : BoundExpr} (h : e.constants?.isSome) : e.isRow = true ∧ e.constant? = none := by
    cases e with
    | row items => exact ⟨rfl, rfl⟩
    | _ => cases h
  rcases hlow with hlow | hlow <;> rcases hhigh with hhigh | hhigh
  · obtain ⟨lo, hlo⟩ := Option.isSome_iff_exists.1 hlow
    obtain ⟨hi, hhi⟩ := Option.isSome_iff_exists.1 hhigh
    rw [ofComparison?_constant hlo, ofComparison?_constant hhi]
    unfold ofBetween ofScalars?
    rw [hlo, hhi, (hscalar hlow).2]
    cases operand.columnOf? source <;> cases operand.columnsOf? source <;> rfl
  · rw [(hscalar hlow).1, (hrow hhigh).1] at halike
    cases halike
  · rw [(hrow hlow).1, (hscalar hhigh).1] at halike
    cases halike
  · obtain ⟨lo, hlo⟩ := Option.isSome_iff_exists.1 hlow
    obtain ⟨hi, hhi⟩ := Option.isSome_iff_exists.1 hhigh
    rw [ofComparison?_constants hlo rfl, ofComparison?_constants hhi rfl]
    unfold ofBetween ofRows?
    rw [hlo, hhi, (hrow hlow).2]
    cases operand.columnOf? source <;> cases operand.columnsOf? source <;> rfl

end SearchArgument

/-! ## Ranges in other spellings -/

section Ranges

variable {source : Nat} {conjuncts others : List BoundExpr}

open SearchArgument (ofConjunct ofConjuncts plain)

theorem map_plain_of_respells (source : Nat) {c : BoundExpr} {spelling : List BoundExpr}
    (h : c.Respells spelling) :
    (ofConjuncts source spelling).map plain = (ofConjunct source c).map plain := by
  cases h with
  | exchange op comparison left right =>
      show (ofConjunct source _ ++ []).map plain = _
      rw [List.append_nil, ofConjunct, ofConjunct, ← Option.toList_map, ← Option.toList_map,
        SearchArgument.map_plain_ofComparison?_flip]
  | divide operand low high lowConstant highConstant alike =>
      show (ofConjunct source _ ++ (ofConjunct source _ ++ [])).map plain = _
      rw [List.append_nil, ofConjunct, ofConjunct, ofConjunct,
        SearchArgument.ofBetween_eq lowConstant highConstant alike]

theorem map_plain_of_respelledOnce (h : RespelledOnce conjuncts others) :
    (ofConjuncts source conjuncts).map plain = (ofConjuncts source others).map plain := by
  cases h with
  | step before behind respells =>
      have hspelling := map_plain_of_respells source respells
      unfold ofConjuncts at hspelling ⊢
      simp only [List.flatMap_append, List.flatMap_cons, List.map_append, hspelling,
        List.append_assoc]

theorem chooseRange_of_map_plain (t : Table)
    (h : (ofConjuncts source conjuncts).map plain = (ofConjuncts source others).map plain) :
    chooseRange t source conjuncts = chooseRange t source others := by
  have hcandidates (index : Index) : Candidate.allOn (ofConjuncts source conjuncts) index =
      Candidate.allOn (ofConjuncts source others) index := by
    rw [← Candidate.allOn_map_plain, h, Candidate.allOn_map_plain]
  rw [chooseRange_eq, chooseRange_eq, funext hcandidates]

/-- The same range is chosen in every spelling of the conjuncts. -/
theorem chooseRange_respelled (t : Table) (source : Nat)
    (h : Relation.ReflTransGen RespelledOnce conjuncts others) :
    chooseRange t source conjuncts = chooseRange t source others := by
  refine chooseRange_of_map_plain t ?_
  induction h with
  | refl => rfl
  | tail _ step ih => exact ih.trans (map_plain_of_respelledOnce step)

end Ranges

/-- A column of `pointTable`. -/
def pointColumn (position : Nat) (name : String) : BoundExpr :=
  .column { source := 0, qualifier := "points", position, name, type := some .bigint,
            collation := none }

/-- The conjuncts of `1 = x AND y >= 2 AND y <= $1`. -/
def pointConjunctsRespelled : List BoundExpr :=
  [.binary .eq (.literal (.integer 1)) (pointColumn 0 "x"),
    .binary .gtEq (pointColumn 1 "y") (.literal (.integer 2)),
    .binary .ltEq (pointColumn 1 "y") (.parameter 0)]

theorem chooseRange_respelled_pointTable :
    Relation.ReflTransGen RespelledOnce pointConjuncts pointConjunctsRespelled ∧
      chooseRange pointTable 0 pointConjuncts =
        chooseRange pointTable 0 pointConjunctsRespelled := by
  have hexchanged : RespelledOnce pointConjuncts
      (pointConjunctsRespelled.take 1 ++ pointConjuncts.drop 1) :=
    .step [] (pointConjuncts.drop 1) (.exchange .eq rfl _ _)
  have hdivided : RespelledOnce (pointConjunctsRespelled.take 1 ++ pointConjuncts.drop 1)
      pointConjunctsRespelled :=
    .step (pointConjunctsRespelled.take 1) []
      (.divide _ (.literal (.integer 2)) (.parameter 0) (.inl rfl) (.inl rfl) rfl)
  have hrespelled := (Relation.ReflTransGen.single hexchanged).tail hdivided
  exact ⟨hrespelled, chooseRange_respelled pointTable 0 hrespelled⟩

/-! ## Unlike bounds -/

/-- The conjunct `x BETWEEN 1 AND (2)` serves no index, and `x >= 1` beside `x <= (2)` does. -/
theorem chooseRange_divided_unlike :
    BoundExpr.IsConstant (.literal (.integer 1)) ∧
      BoundExpr.IsConstant (.row [.literal (.integer 2)]) ∧
        chooseRange pointTable 0 [.between (pointColumn 0 "x") (.literal (.integer 1))
          (.row [.literal (.integer 2)]) false] = .ok none ∧
        (chooseRange pointTable 0 [.binary .gtEq (pointColumn 0 "x") (.literal (.integer 1)),
          .binary .ltEq (pointColumn 0 "x") (.row [.literal (.integer 2)])]).map
            (·.map (·.text)) = .ok (some "(>= (1), )") :=
  ⟨.inl rfl, .inr rfl, by rfl, by rfl⟩

namespace BoundExpr

variable {left right : BoundExpr}

/-- No types of placeholders let the expression pass. -/
def Refused (e : BoundExpr) : Prop := ∀ slots, ∃ error, e.resolve.runOn slots = .error error

theorem resolveComparison_of_isRow_ne (h : left.isRow ≠ right.isRow) (whole : BoundExpr) :
    whole.resolveComparison left right = throw (.invalidStatement (.rowWithScalar whole.sql)) := by
  refine resolveComparison_mixed ?_ ?_ whole
  · cases hleft : left.isRow with
    | false => simpa [hleft] using h
    | true => rfl
  · rintro lefts rights rfl rfl
    exact h rfl

/-- A comparison, or a test for a range, of a row with what is no row. -/
def IsMixed : BoundExpr → Prop
  | .binary op left right => op.group = .comparison ∧ left.isRow ≠ right.isRow
  | .between operand low high _ => operand.isRow ≠ low.isRow ∨ operand.isRow ≠ high.isRow
  | _ => False

theorem refused_of_isMixed {c : BoundExpr} (h : c.IsMixed) : c.Refused := by
  intro slots
  cases c with
  | binary op left right =>
      obtain ⟨hop, hne⟩ := h
      rw [resolve_comparison hop, resolveComparison_of_isRow_ne hne]
      exact ⟨_, rfl⟩
  | between operand low high negated =>
      rw [resolve]
      by_cases hlow : operand.isRow = low.isRow
      · rw [resolveComparison_of_isRow_ne (h.resolve_left (not_not.2 hlow)), Typing.runOn_bind]
        cases (resolveComparison (between operand low high negated) operand low).runOn slots with
        | error e => exact ⟨e, rfl⟩
        | ok _ => exact ⟨_, rfl⟩
      · rw [resolveComparison_of_isRow_ne hlow]
        exact ⟨_, rfl⟩
  | _ => cases h

theorem Refused.resolvePredicate {e : BoundExpr} (h : e.Refused) (slots : Slots) :
    ∃ error, e.resolvePredicate.runOn slots = .error error := by
  obtain ⟨error, herror⟩ := h slots
  unfold BoundExpr.resolvePredicate
  rw [Typing.runOn_bind, herror]
  exact ⟨error, rfl⟩

/-- A predicate is refused with any of its conjuncts. -/
theorem Refused.of_mem_conjuncts {c e : BoundExpr} (h : c.Refused) (hc : c ∈ e.conjuncts) :
    e.Refused := by
  induction e using conjuncts.induct with
  | case1 left right ihleft ihright =>
      intro slots
      rw [resolve_logical rfl, Typing.runOn_bind]
      rw [conjuncts, List.mem_append] at hc
      cases hleft : left.resolvePredicate.runOn slots with
      | error error => exact ⟨error, rfl⟩
      | ok after =>
          rcases hc with hc | hc
          · obtain ⟨error, herror⟩ := (ihleft hc).resolvePredicate slots
            rw [hleft] at herror
            cases herror
          · obtain ⟨error, herror⟩ := (ihright hc).resolvePredicate after.2
            rw [ok_bind, Typing.runOn_bind, herror]
            exact ⟨error, rfl⟩
  | case2 e hnot =>
      rw [conjuncts] at hc
      · rw [← List.mem_singleton.1 hc]
        exact h
      · exact hnot

/-- A predicate with such a test is refused, and so is one with the comparisons that the test is
divided into. -/
theorem refused_of_unlike {predicate operand low high : BoundExpr} {negated : Bool}
    (hunlike : low.isRow ≠ high.isRow)
    (h : .between operand low high negated ∈ predicate.conjuncts ∨
      .binary .gtEq operand low ∈ predicate.conjuncts ∧
        .binary .ltEq operand high ∈ predicate.conjuncts) : predicate.Refused := by
  have hmixed : operand.isRow ≠ low.isRow ∨ operand.isRow ≠ high.isRow := by
    by_contra hmatch
    obtain ⟨hlow, hhigh⟩ := not_or.1 hmatch
    exact hunlike ((not_not.1 hlow).symm.trans (not_not.1 hhigh))
  rcases h with hbetween | ⟨hlower, hupper⟩
  · exact (refused_of_isMixed (c := .between operand low high negated) hmixed).of_mem_conjuncts
      hbetween
  · rcases hmixed with hlow | hhigh
    · exact (refused_of_isMixed (c := .binary .gtEq operand low) ⟨rfl, hlow⟩).of_mem_conjuncts
        hlower
    · exact (refused_of_isMixed (c := .binary .ltEq operand high) ⟨rfl, hhigh⟩).of_mem_conjuncts
        hupper

end BoundExpr

end QueryPlanner
