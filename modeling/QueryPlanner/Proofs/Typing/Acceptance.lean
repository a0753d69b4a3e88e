import Mathlib.Logic.Relation
import QueryPlanner.Proofs.Typing.Rules

/-!
# Which expressions are accepted

An operator has a rule on its operands: arithmetic takes numbers, `AND`, `OR` and `NOT` take truth
values, and a comparison takes what can be compared, rows item by item.  An expression without
placeholders is accepted just if the rules of all operators are obeyed that typing examines.

Typing examines all of an expression but the items of a row that is tested for `NULL`.  There any
expression is let through.

Main statement: `resolve_accepts_iff`.
-/

namespace QueryPlanner

namespace BoundExpr

/-! ## Rules -/

/-- The type of an expression without placeholders, `none` when nothing determines it. -/
def type? : BoundExpr → Option DataType
  | .column c => c.type
  | .literal value => value.dataType?
  | .parameter _ | .row _ => none
  | .binary op left right =>
      match op.group with
      | .arithmetic => widest left.type? right.type?
      | .comparison | .logical => some .boolean
  | .not _ | .isNull _ _ | .between _ _ _ _ => some .boolean

/-- A scalar of an allowed type, or without type. -/
def IsScalarOf (allowed : DataType → Prop) (e : BoundExpr) : Prop :=
  e.isRow = false ∧ ∀ type ∈ e.type?, allowed type

/-- Two operands can be compared: scalars by their types, rows of one length item by item. -/
inductive Comparable : BoundExpr → BoundExpr → Prop where
  | scalars {left right : BoundExpr} (isLeft : left.isRow = false) (isRight : right.isRow = false)
      (types : ∀ a ∈ left.type?, ∀ b ∈ right.type?, a.comparable b = true) :
      Comparable left right
  | rows {lefts rights : List BoundExpr} (items : List.Forall₂ Comparable lefts rights) :
      Comparable (.row lefts) (.row rights)

/-- The operator of an expression has the operands that it takes. -/
def ObeysRule : BoundExpr → Prop
  | .column _ | .literal _ | .parameter _ | .row _ | .isNull _ _ => True
  | .binary op left right =>
      match op.group with
      | .comparison => left.Comparable right
      | .logical => left.IsScalarOf (· = .boolean) ∧ right.IsScalarOf (· = .boolean)
      | .arithmetic => left.IsScalarOf (·.isNumeric) ∧ right.IsScalarOf (·.isNumeric)
  | .not operand => operand.IsScalarOf (· = .boolean)
  | .between operand low high _ => operand.Comparable low ∧ operand.Comparable high

/-! ## Parts -/

/-- The operands of an expression, or the items of a row. -/
def operands : BoundExpr → List BoundExpr
  | .column _ | .literal _ | .parameter _ => []
  | .binary _ left right => [left, right]
  | .not operand | .isNull operand _ => [operand]
  | .between operand low high _ => [operand, low, high]
  | .row items => items

/-- The operands that typing looks into. -/
def examined : BoundExpr → List BoundExpr
  | .isNull operand _ => if operand.isRow then [] else [operand]
  | e => e.operands

/-- An expression contains itself and what its operands contain. -/
def Contains : BoundExpr → BoundExpr → Prop := Relation.ReflTransGen fun e o => o ∈ e.operands

/-- What of an expression typing looks into. -/
def Examines : BoundExpr → BoundExpr → Prop := Relation.ReflTransGen fun e o => o ∈ e.examined

/-- The rules are obeyed wherever typing looks. -/
def WellTyped (e : BoundExpr) : Prop := ∀ node, e.Examines node → node.ObeysRule

/-- An expression contains no placeholder. -/
def IsClosed (e : BoundExpr) : Prop := ∀ index, ¬e.Contains (.parameter index)

variable {e o left right : BoundExpr}

theorem wellTyped_iff : e.WellTyped ↔ e.ObeysRule ∧ ∀ o ∈ e.examined, o.WellTyped := by
  constructor
  · intro h
    exact ⟨h e .refl, fun o ho node hnode => h node (.head ho hnode)⟩
  · rintro ⟨hrule, hoperands⟩ node hnode
    rcases Relation.ReflTransGen.cases_head hnode with rfl | ⟨o, ho, hnode⟩
    · exact hrule
    · exact hoperands o ho node hnode

/-- Where there is nothing to look into, only the rule of the expression itself counts. -/
theorem wellTyped_of_examined_eq_nil (h : e.examined = []) : e.WellTyped ↔ e.ObeysRule := by
  rw [wellTyped_iff, h]
  exact and_iff_left (List.forall_mem_nil _)

theorem IsClosed.of_mem (h : e.IsClosed) (ho : o ∈ e.operands) : o.IsClosed :=
  fun index hindex => h index (.head ho hindex)

theorem looksItems_eq (items : List BoundExpr) : looksItems items = items.flatMap looks := by
  induction items with
  | nil => rfl
  | cons item rest ih => rw [looksItems, ih, List.flatMap_cons]

/-- An expression has the placeholders of its operands. -/
theorem mem_looks_iff {index : UInt64} :
    index ∈ e.looks ↔ e = .parameter index ∨ ∃ o ∈ e.operands, index ∈ o.looks := by
  cases e with
  | row items => simp [looks, looksItems_eq, operands]
  | between operand low high negated =>
      simp [looks, operands]
      tauto
  | _ => simp [looks, operands, eq_comm]

theorem sizeOf_lt_of_mem_operands (h : o ∈ e.operands) : sizeOf o < sizeOf e := by
  cases e with
  | column | literal | parameter => cases h
  | binary op left right =>
      rw [binary.sizeOf_spec]
      simp only [operands, List.mem_cons, List.not_mem_nil, or_false] at h
      rcases h with rfl | rfl <;> omega
  | not operand =>
      obtain rfl := List.mem_singleton.1 h
      rw [not.sizeOf_spec]
      omega
  | isNull operand negated =>
      obtain rfl := List.mem_singleton.1 h
      rw [isNull.sizeOf_spec]
      omega
  | between operand low high negated =>
      rw [between.sizeOf_spec]
      simp only [operands, List.mem_cons, List.not_mem_nil, or_false] at h
      rcases h with rfl | rfl | rfl <;> omega
  | row items =>
      have hlt : sizeOf o < sizeOf items := List.sizeOf_lt_of_mem h
      rw [row.sizeOf_spec]
      omega

/-- The placeholders of an expression are those that it contains. -/
theorem mem_looks_iff_contains {index : UInt64} :
    index ∈ e.looks ↔ e.Contains (.parameter index) := by
  constructor
  · -- By induction on the size: the operands of a row are in a list.
    intro h
    induction hsize : sizeOf e using Nat.strongRecOn generalizing e with
    | _ size ih =>
        subst hsize
        rcases mem_looks_iff.1 h with rfl | ⟨o, ho, hindex⟩
        · exact .refl
        · exact .head ho (ih _ (sizeOf_lt_of_mem_operands ho) hindex rfl)
  · intro h
    induction h using Relation.ReflTransGen.head_induction_on with
    | refl => exact mem_looks_iff.2 (.inl rfl)
    | head ho _ ih => exact mem_looks_iff.2 (.inr ⟨_, ho, ih⟩)

theorem mem_operands_of_mem_examined (h : o ∈ e.examined) : o ∈ e.operands := by
  cases e with
  | isNull operand negated =>
      by_cases hrow : operand.isRow = true
      · rw [examined, if_pos hrow] at h
        cases h
      · rwa [examined, if_neg hrow] at h
  | _ => exact h

theorem Examines.contains {node : BoundExpr} (h : e.Examines node) : e.Contains node := by
  induction h with
  | refl => exact .refl
  | tail _ hnode ih => exact ih.tail (mem_operands_of_mem_examined hnode)

/-- Without a row that is tested for `NULL`, typing looks into all of an expression. -/
theorem Contains.examines {node : BoundExpr}
    (hrows : ∀ items negated, ¬e.Contains (.isNull (.row items) negated))
    (h : e.Contains node) : e.Examines node := by
  induction h with
  | refl => exact .refl
  | @tail parent node hparent hnode ih =>
      refine ih.tail ?_
      cases parent with
      | isNull operand negated =>
          cases operand with
          | row items => exact absurd hparent (hrows items negated)
          | _ => exact hnode
      | _ => exact hnode

/-! What the operators make of this. -/

section Operators

variable {op : BinaryOp} {negated : Bool} {low high : BoundExpr}

theorem IsClosed.operands_binary (h : (binary op left right).IsClosed) :
    left.IsClosed ∧ right.IsClosed :=
  ⟨h.of_mem List.mem_cons_self, h.of_mem (List.mem_cons_of_mem left List.mem_cons_self)⟩

theorem type?_of_group_ne (h : op.group ≠ .arithmetic) :
    (binary op left right).type? = some .boolean := by
  rw [type?]
  cases hgroup : op.group with
  | arithmetic => exact absurd hgroup h
  | _ => rfl

theorem type?_arithmetic (h : op.group = .arithmetic) :
    (binary op left right).type? = widest left.type? right.type? := by
  rw [type?, h]

theorem obeysRule_comparison_iff (h : op.group = .comparison) :
    (binary op left right).ObeysRule ↔ left.Comparable right := by
  cases op <;> cases h <;> exact Iff.rfl

theorem obeysRule_logical_iff (h : op.group = .logical) :
    (binary op left right).ObeysRule ↔
      left.IsScalarOf (· = .boolean) ∧ right.IsScalarOf (· = .boolean) := by
  cases op <;> cases h <;> exact Iff.rfl

theorem obeysRule_arithmetic_iff (h : op.group = .arithmetic) :
    (binary op left right).ObeysRule ↔
      left.IsScalarOf (·.isNumeric) ∧ right.IsScalarOf (·.isNumeric) := by
  cases op <;> cases h <;> exact Iff.rfl

theorem wellTyped_binary_iff : (binary op left right).WellTyped ↔
    (binary op left right).ObeysRule ∧ left.WellTyped ∧ right.WellTyped := by
  refine wellTyped_iff.trans (and_congr_right fun _ => ?_)
  show (∀ x ∈ [left, right], x.WellTyped) ↔ _
  rw [List.forall_mem_cons, List.forall_mem_singleton]

theorem wellTyped_not_iff : o.not.WellTyped ↔ o.IsScalarOf (· = .boolean) ∧ o.WellTyped :=
  wellTyped_iff.trans (and_congr_right fun _ => List.forall_mem_singleton)

theorem wellTyped_isNull_iff (h : o.isRow = false) : (isNull o negated).WellTyped ↔ o.WellTyped := by
  rw [wellTyped_iff, examined, if_neg (by rw [h]; exact Bool.false_ne_true)]
  exact (and_iff_right trivial).trans List.forall_mem_singleton

/-- Nothing is asked of a row that is tested for `NULL`. -/
theorem wellTyped_isNull_of_isRow (h : o.isRow = true) : (isNull o negated).WellTyped := by
  have hnone : (isNull o negated).examined = [] := if_pos h
  exact (wellTyped_of_examined_eq_nil hnone).2 trivial

theorem wellTyped_between_iff : (between o low high negated).WellTyped ↔
    (o.Comparable low ∧ o.Comparable high) ∧ o.WellTyped ∧ low.WellTyped ∧ high.WellTyped := by
  refine wellTyped_iff.trans (and_congr_right fun _ => ?_)
  show (∀ x ∈ [o, low, high], x.WellTyped) ↔ _
  rw [List.forall_mem_cons, List.forall_mem_cons, List.forall_mem_singleton]

theorem wellTyped_row_iff {items : List BoundExpr} :
    (row items).WellTyped ↔ ∀ item ∈ items, item.WellTyped :=
  wellTyped_iff.trans (and_iff_right trivial)

end Operators

/-! ## Comparing -/

theorem comparable_rows_iff {lefts rights : List BoundExpr} :
    (row lefts).Comparable (row rights) ↔ List.Forall₂ Comparable lefts rights := by
  refine ⟨fun h => ?_, .rows⟩
  cases h with
  | scalars isLeft isRight types => cases isLeft
  | rows items => exact items

theorem comparable_scalars_iff (hl : left.isRow = false) (hr : right.isRow = false) :
    left.Comparable right ↔ ∀ a ∈ left.type?, ∀ b ∈ right.type?, a.comparable b = true := by
  refine ⟨fun h => ?_, .scalars hl hr⟩
  cases h with
  | scalars _ _ types => exact types
  | rows items => cases hl

theorem not_comparable_mixed (h : (left.isRow || right.isRow) = true)
    (hne : ∀ lefts rights, left = row lefts → right = row rights → False) :
    ¬left.Comparable right := by
  intro hcomparable
  cases hcomparable with
  | scalars isLeft isRight types =>
      rw [isLeft, isRight] at h
      cases h
  | rows items => exact hne _ _ rfl rfl

end BoundExpr

/-! ## Deciding conditions -/

namespace Typing

variable {α β : Type} {p q : Prop} {a : α} {b : β} {t : Typing α} {f : α → Typing β}

/-- The computation gives something if a condition holds, and fails if not.  It has nothing to do
with slots. -/
def Decides (p : Prop) (a : α) (t : Typing α) : Prop :=
  p ∧ t = pure a ∨ ¬p ∧ ∃ e, t = throw e

namespace Decides

theorem pure (h : p) (a : α) : Decides p a (pure a) := .inl ⟨h, rfl⟩

theorem throw (h : ¬p) (a : α) (e : PlanError) : Decides p a (throw e) := .inr ⟨h, e, rfl⟩

theorem congr (ht : Decides p a t) (h : p ↔ q) : Decides q a t := by
  rwa [Decides, h] at ht

theorem bind (ht : Decides p a t) (hf : p → Decides q b (f a)) : Decides (p ∧ q) b (t >>= f) := by
  rcases ht with ⟨hp, rfl⟩ | ⟨hp, e, rfl⟩
  · exact (hf hp).congr (and_iff_right hp).symm
  · exact .throw (fun h => hp h.1) b e

/-- A computation that is followed by one that cannot fail. -/
theorem bind_pure (ht : Decides p a t) (b : β) : Decides p b (t >>= fun _ => Pure.pure b) :=
  (ht.bind fun _ => .pure trivial b).congr (and_iff_left trivial)

theorem of_ite {c : Prop} [Decidable c] (e : PlanError) :
    Decides c () (if c then Pure.pure () else MonadExcept.throw e) := by
  split
  next h => exact .pure h ()
  next h => exact .throw h () e

theorem exists_runOn_iff (ht : Decides p a t) (slots : Slots) :
    (∃ result, t.runOn slots = .ok result) ↔ p := by
  rcases ht with ⟨hp, rfl⟩ | ⟨hp, e, rfl⟩
  · exact iff_of_true ⟨(a, slots), rfl⟩ hp
  · exact iff_of_false (fun ⟨_, h⟩ => nomatch h) hp

theorem eq_of_runOn (ht : Decides p a t) {slots after : Slots} {result : α}
    (h : t.runOn slots = .ok (result, after)) : result = a ∧ after = slots := by
  rcases ht with ⟨-, rfl⟩ | ⟨-, e, rfl⟩
  · cases h
    exact ⟨rfl, rfl⟩
  · cases h

end Decides

end Typing

open Typing (Decides)

namespace BoundExpr

/-! ## Expressions -/

variable {e left right : BoundExpr}

theorem infer_of_isClosed (h : e.IsClosed) (type : Option DataType) : e.infer type = pure () := by
  cases e with
  | parameter index => exact absurd .refl (h index)
  | _ => rfl

/-- Operands without placeholders give each other nothing. -/
theorem decides_inferBoth_bind {β : Type} {p : Prop} {b : β} {f : Unit → Typing β}
    (hl : left.IsClosed) (hr : right.IsClosed) {leftType rightType : Option DataType}
    (hf : Decides p b (f ())) : Decides p b (inferBoth left right leftType rightType >>= f) := by
  have hinfer : inferBoth left right leftType rightType = pure () := by
    cases leftType <;> cases rightType <;> simp [infer_of_isClosed hl, infer_of_isClosed hr]
  rw [hinfer]
  exact hf

theorem decides_requireBoolean (h : e.IsClosed) (type : Option DataType) :
    Decides (∀ actual ∈ type, actual = .boolean) () (e.requireBoolean type) := by
  unfold requireBoolean
  split
  next =>
    rw [infer_of_isClosed h]
    exact .pure nofun ()
  next => exact .pure (fun _ ha => (Option.some.inj ha).symm) ()
  next other hother => exact .throw (fun hall => hother (hall other rfl)) () _

theorem decides_requireComparable (whole : BoundExpr) (leftType rightType : Option DataType) :
    Decides (∀ a ∈ leftType, ∀ b ∈ rightType, a.comparable b = true) ()
      (whole.requireComparable leftType rightType) := by
  unfold requireComparable
  split
  next a b => exact (Decides.of_ite _).congr (by simp)
  next hnone => exact .pure (fun a ha b hb => (hnone a b ha hb).elim) ()

theorem decides_arithmeticType (whole : BoundExpr) (leftType rightType : Option DataType) :
    Decides ((∀ type ∈ leftType, type.isNumeric) ∧ ∀ type ∈ rightType, type.isNumeric)
      (widest leftType rightType) (whole.arithmeticType leftType rightType) := by
  have hlist : (∀ type ∈ leftType.toList ++ rightType.toList, type.isNumeric) ↔
      (∀ type ∈ leftType, type.isNumeric) ∧ ∀ type ∈ rightType, type.isNumeric := by
    simp only [List.forall_mem_append, Option.mem_toList, Option.mem_def]
  refine Decides.congr ?_ hlist
  unfold arithmeticType
  cases hfind : (leftType.toList ++ rightType.toList).find? (!·.isNumeric) with
  | some type =>
      have hodd := List.find?_some hfind
      refine .throw (fun hall => ?_) _ _
      rw [hall type (List.mem_of_find?_eq_some hfind)] at hodd
      cases hodd
  | none =>
      have hall : ∀ type ∈ leftType.toList ++ rightType.toList, type.isNumeric := by
        simpa [or_imp, forall_and] using hfind
      cases leftType <;> cases rightType <;> exact .pure hall _

theorem decides_resolvePredicate (hclosed : e.IsClosed)
    (h : Decides (e.isRow = false ∧ e.WellTyped) e.type? e.resolve) :
    Decides (e.IsScalarOf (· = .boolean) ∧ e.WellTyped) () e.resolvePredicate :=
  (h.bind fun _ => decides_requireBoolean hclosed e.type?).congr (by
    unfold IsScalarOf
    tauto)

/-- What typing decides, by induction on the recursion through the expression. -/
theorem decides_resolve_and_comparison :
    (∀ e : BoundExpr, e.IsClosed → Decides (e.isRow = false ∧ e.WellTyped) e.type? e.resolve) ∧
      (∀ whole left right : BoundExpr, left.IsClosed → right.IsClosed →
        Decides (left.Comparable right ∧ left.WellTyped ∧ right.WellTyped) ()
          (whole.resolveComparison left right)) ∧
        ∀ (whole : BoundExpr) (lefts rights : List BoundExpr), lefts.length = rights.length →
          (∀ left ∈ lefts, left.IsClosed) → (∀ right ∈ rights, right.IsClosed) →
            Decides (List.Forall₂ Comparable lefts rights ∧ (∀ left ∈ lefts, left.WellTyped) ∧
              ∀ right ∈ rights, right.WellTyped) () (whole.resolveComparisons lefts rights) := by
  apply typing_induction
  case column =>
    intro c _
    rw [resolve]
    exact .pure ⟨rfl, (wellTyped_of_examined_eq_nil rfl).2 trivial⟩ _
  case literal =>
    intro value _
    rw [resolve]
    exact .pure ⟨rfl, (wellTyped_of_examined_eq_nil rfl).2 trivial⟩ _
  case parameter =>
    intro index hclosed
    exact absurd .refl (hclosed index)
  case comparison =>
    intro op left right hop ih hclosed
    obtain ⟨hl, hr⟩ := hclosed.operands_binary
    rw [resolve_comparison hop, type?_of_group_ne (by rw [hop]; decide), wellTyped_binary_iff,
      obeysRule_comparison_iff hop]
    exact ((ih hl hr).bind_pure _).congr (and_iff_right rfl).symm
  case logical =>
    intro op left right hop ihl ihr hclosed
    obtain ⟨hl, hr⟩ := hclosed.operands_binary
    rw [resolve_logical hop, type?_of_group_ne (by rw [hop]; decide), wellTyped_binary_iff,
      obeysRule_logical_iff hop]
    refine ((decides_resolvePredicate hl (ihl hl)).bind fun _ =>
      (decides_resolvePredicate hr (ihr hr)).bind_pure _).congr ?_
    exact ⟨fun h => ⟨rfl, ⟨h.1.1, h.2.1⟩, h.1.2, h.2.2⟩,
      fun h => ⟨⟨h.2.1.1, h.2.2.1⟩, h.2.1.2, h.2.2.2⟩⟩
  case arithmetic =>
    intro op left right hop ihl ihr hclosed
    obtain ⟨hl, hr⟩ := hclosed.operands_binary
    rw [resolve_arithmetic hop, type?_arithmetic hop, wellTyped_binary_iff,
      obeysRule_arithmetic_iff hop]
    refine ((ihl hl).bind fun _ => (ihr hr).bind fun _ =>
      decides_inferBoth_bind hl hr (decides_arithmeticType _ _ _)).congr ?_
    exact ⟨fun h => ⟨rfl, ⟨⟨h.1.1, h.2.2.1⟩, h.2.1.1, h.2.2.2⟩, h.1.2, h.2.1.2⟩,
      fun h => ⟨⟨h.2.1.1.1, h.2.2.1⟩, ⟨h.2.1.2.1, h.2.2.2⟩, h.2.1.1.2, h.2.1.2.2⟩⟩
  case not =>
    intro operand ih hclosed
    have hoperand : operand.IsClosed := hclosed.of_mem List.mem_cons_self
    rw [resolve_not, wellTyped_not_iff]
    exact ((decides_resolvePredicate hoperand (ih hoperand)).bind_pure _).congr
      (and_iff_right rfl).symm
  case isNull =>
    intro operand negated hrow ih hclosed
    rw [resolve_isNull hrow, wellTyped_isNull_iff hrow]
    exact ((ih (hclosed.of_mem List.mem_cons_self)).bind_pure _).congr
      ⟨fun h => ⟨rfl, h.2⟩, fun h => ⟨hrow, h.2⟩⟩
  case isNull_row =>
    -- The row is passed over, with whatever is in it, and so it is not examined.
    intro operand negated hrow _
    rw [resolve_isNull_of_isRow hrow]
    exact .pure ⟨rfl, wellTyped_isNull_of_isRow hrow⟩ _
  case between =>
    intro operand low high negated ihlow ihhigh hclosed
    have hoperand : operand.IsClosed := hclosed.of_mem (by simp [operands])
    have hlow : low.IsClosed := hclosed.of_mem (by simp [operands])
    have hhigh : high.IsClosed := hclosed.of_mem (by simp [operands])
    rw [resolve, wellTyped_between_iff]
    refine ((ihlow hoperand hlow).bind fun _ => (ihhigh hoperand hhigh).bind_pure _).congr ?_
    exact ⟨fun h => ⟨rfl, ⟨h.1.1, h.2.1⟩, h.1.2.1, h.1.2.2, h.2.2.2⟩,
      fun h => ⟨⟨h.2.1.1, h.2.2.1, h.2.2.2.1⟩, h.2.1.2, h.2.2.1, h.2.2.2.2⟩⟩
  case row =>
    intro items _
    rw [resolve]
    exact .throw (fun h => Bool.false_ne_true h.1.symm) _ _
  case rows =>
    intro whole lefts rights hlength ih hl hr
    rw [resolveComparison_rows hlength, comparable_rows_iff, wellTyped_row_iff, wellTyped_row_iff]
    exact ih hlength (fun left h => hl.of_mem h) fun right h => hr.of_mem h
  case uneven =>
    intro whole lefts rights hlength hl hr
    rw [resolveComparison_of_length_ne hlength, comparable_rows_iff]
    exact .throw (fun h => hlength h.1.length_eq) _ _
  case mixed =>
    -- One of the operands is a row and the other is none.
    intro whole left right hne hrow hl hr
    rw [resolveComparison_mixed hrow hne]
    exact .throw (fun h => not_comparable_mixed hrow hne h.1) _ _
  case scalars =>
    intro whole left right hrow ihl ihr hl hr
    obtain ⟨hleft, hright⟩ := Bool.or_eq_false_iff.1 hrow
    rw [resolveComparison_scalars hrow]
    refine ((ihl hl).bind fun _ => (ihr hr).bind fun _ =>
      decides_inferBoth_bind hl hr (decides_requireComparable _ _ _)).congr ?_
    rw [comparable_scalars_iff hleft hright]
    exact ⟨fun h => ⟨h.2.2, h.1.2, h.2.1.2⟩, fun h => ⟨⟨hleft, h.2.1⟩, ⟨hright, h.2.2⟩, h.1⟩⟩
  case items =>
    intro whole left lefts right rights ih ihs hlength hl hr
    rw [List.forall_mem_cons] at hl hr
    rw [resolveComparisons]
    refine ((ih hl.1 hr.1).bind fun _ => ihs (Nat.succ.inj hlength) hl.2 hr.2).congr ?_
    rw [List.forall₂_cons, List.forall_mem_cons, List.forall_mem_cons]
    tauto
  case no_items =>
    -- Both lists end together, for their lengths have been compared before.
    intro whole lefts rights hnone hlength _ _
    rw [resolveComparisons_of_nil hnone]
    obtain ⟨rfl, rfl⟩ : lefts = [] ∧ rights = [] := by
      rcases hnone with rfl | rfl
      · exact ⟨rfl, List.eq_nil_of_length_eq_zero hlength.symm⟩
      · exact ⟨List.eq_nil_of_length_eq_zero hlength, rfl⟩
    exact .pure ⟨.nil, List.forall_mem_nil _, List.forall_mem_nil _⟩ ()

/-- An expression without placeholders is accepted just if it is no row and each operator that
typing examines has operands of the types it takes, or without type; then it has its own type and
nothing is found out about slots.  Typing examines all parts of an expression in which no row is
tested for `NULL`. -/
theorem resolve_accepts_iff (h : ∀ index, ¬e.Contains (.parameter index)) (slots : Slots) :
    ((∃ result, e.resolve.runOn slots = .ok result) ↔
        e.isRow = false ∧ ∀ node, e.Examines node → node.ObeysRule) ∧
      (∀ type after, e.resolve.runOn slots = .ok (type, after) →
        type = e.type? ∧ after = slots) ∧
      ((∀ items negated, ¬e.Contains (.isNull (.row items) negated)) →
        ∀ node, e.Examines node ↔ e.Contains node) := by
  have hdecides := decides_resolve_and_comparison.1 e h
  exact ⟨hdecides.exists_runOn_iff slots, fun type after hrun => hdecides.eq_of_runOn hrun,
    fun hrows node => ⟨Examines.contains, Contains.examines hrows⟩⟩

end BoundExpr

/-- The sum `1 + 'x'`. -/
def mixedSum : BoundExpr := .binary .plus (.literal (.integer 1)) (.literal (.text "x"))

/-- The row `(1 + 'x', 2)`. -/
def mixedRow : BoundExpr := .row [mixedSum, .literal (.integer 2)]

theorem not_obeysRule_mixedSum : ¬mixedSum.ObeysRule := by
  rintro ⟨-, -, htypes⟩
  exact absurd (htypes .varchar rfl) (by decide)

/-- A sum with a text is refused in a row that is compared, and accepted in a row that is tested for
`NULL`. -/
theorem resolve_accepts_mixedRow :
    (∃ result, (BoundExpr.isNull mixedRow false).resolve.runOn [] = .ok result) ∧
      (BoundExpr.isNull mixedRow false).Contains mixedSum ∧ ¬mixedSum.ObeysRule ∧
      ¬∃ result, (BoundExpr.binary .eq mixedRow mixedRow).resolve.runOn [] = .ok result := by
  have hsum : mixedRow.Contains mixedSum := .single List.mem_cons_self
  have hrow {op : BinaryOp} : (BoundExpr.binary op mixedRow mixedRow).Examines mixedSum :=
    .head (List.mem_cons_self : mixedRow ∈ _) (.single (List.mem_cons_self : mixedSum ∈ _))
  have htest := BoundExpr.resolve_accepts_iff (e := .isNull mixedRow false)
    (fun index h => nomatch BoundExpr.mem_looks_iff_contains.2 h) []
  have hcompare := BoundExpr.resolve_accepts_iff (e := .binary .eq mixedRow mixedRow)
    (fun index h => nomatch BoundExpr.mem_looks_iff_contains.2 h) []
  refine ⟨htest.1.2 ⟨rfl, ?_⟩, .head List.mem_cons_self hsum, not_obeysRule_mixedSum, fun h => ?_⟩
  · exact BoundExpr.wellTyped_isNull_of_isRow rfl
  · exact not_obeysRule_mixedSum ((hcompare.1.1 h).2 mixedSum hrow)

end QueryPlanner
