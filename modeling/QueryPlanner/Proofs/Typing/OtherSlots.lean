import Mathlib.Data.List.Forall2
import QueryPlanner.Proofs.Typing.Slots

/-!
# Typing with more known

What is known of the placeholders decides which types an expression has and whether its types fit.
It decides nothing else: an expression that is typed from some slots is typed from slots that know
more than it leaves, or refused for a type mismatch.  Its type stays as it is, or is a wider numeric
type, where it had one.

Main statements: `Alike.bind`, the rule for sequences, and `alike_resolve`.
-/

namespace QueryPlanner

/-! ## Wider types -/

/-- A type with more known: it is the same or a wider numeric one, where there was one. -/
def Widens : Option DataType → Option DataType → Prop
  | none, _ => True
  | some _, none => False
  | some a, some b => a = b ∨ a.promote? b = some b

instance : DecidableRel Widens
  | none, _ => .isTrue trivial
  | some _, none => .isFalse id
  | some a, some b => inferInstanceAs (Decidable (a = b ∨ a.promote? b = some b))

namespace Widens

theorem refl (a : Option DataType) : Widens a a := by
  cases a with
  | none => trivial
  | some a => exact .inl rfl

theorem trans {a b c : Option DataType} (h : Widens a b) (h' : Widens b c) : Widens a c := by
  cases a with
  | none => trivial
  | some a =>
      cases b with
      | none => cases h
      | some b =>
          cases c with
          | none => cases h'
          | some c =>
              revert h h'
              cases a <;> cases b <;> cases c <;> decide

/-- The type of an arithmetic operation is not narrower than those of its operands. -/
theorem widest_left {a b : Option DataType} (h : ∀ type ∈ a.toList ++ b.toList, type.isNumeric) :
    Widens a (BoundExpr.widest a b) := by
  cases a with
  | none => trivial
  | some a =>
      cases b with
      | none => exact refl _
      | some b =>
          have ha := h a (by simp)
          have hb := h b (by simp)
          cases a <;> cases ha <;> cases b <;> cases hb <;> decide

theorem widest_right {a b : Option DataType} (h : ∀ type ∈ a.toList ++ b.toList, type.isNumeric) :
    Widens b (BoundExpr.widest a b) := by
  cases b with
  | none => trivial
  | some b =>
      cases a with
      | none => exact refl _
      | some a =>
          have ha := h a (by simp)
          have hb := h b (by simp)
          cases a <;> cases ha <;> cases b <;> cases hb <;> decide

/-- The type of an arithmetic operation is the type of an operand. -/
theorem widest {a b c : Option DataType} (ha : Widens a c) (hb : Widens b c) :
    Widens (BoundExpr.widest a b) c := by
  cases a with
  | none =>
      cases b with
      | none => trivial
      | some b => exact hb
  | some a =>
      cases b with
      | none => exact ha
      | some b =>
          cases c with
          | none => cases ha
          | some c =>
              revert ha hb
              cases a <;> cases b <;> cases c <;> decide

end Widens

/-! ## Computations -/

/-- The computation gives something with a property, or fails with a type mismatch. -/
def OrMismatch {α : Type} (P : α → Prop) : Except PlanError α → Prop
  | .ok a => P a
  | .error e => e.code = .typeMismatch

theorem OrMismatch.bind {α β : Type} {P : α → Prop} {Q : β → Prop} {x : Except PlanError α}
    {f : α → Except PlanError β} (hx : OrMismatch P x) (hf : ∀ a, P a → OrMismatch Q (f a)) :
    OrMismatch Q (x >>= f) := by
  cases x with
  | error e => exact hx
  | ok a => exact hf a hx

theorem OrMismatch.forM {α : Type} {f : α → Except PlanError PUnit} {l : List α}
    (h : ∀ a ∈ l, OrMismatch (fun _ => True) (f a)) : OrMismatch (fun _ => True) (l.forM f) := by
  induction l with
  | nil => trivial
  | cons a l ih =>
      rw [List.forall_mem_cons] at h
      exact h.1.bind fun _ _ => ih h.2

namespace Typing

variable {α β : Type}

/-- Where one computation succeeds, the other one succeeds with a related result, or finds a type
mismatch, from all slots that know what the first one leaves. -/
structure Alike (R : α → α → Prop) (t u : Typing α) : Prop where
  keeps : Keeps (fun _ => True) α t
  keeps' : Keeps (fun _ => True) α u
  again : ∀ slots a after, t.runOn slots = .ok (a, after) →
    ∀ others, after.KnownIn others → OrMismatch (fun b => R a b.1) (u.runOn others)

namespace Alike

variable {R : α → α → Prop} {S : β → β → Prop} {t u : Typing α} {f g : α → Typing β}

theorem pure {a b : α} (h : R a b) : Alike R (pure a) (pure b) where
  keeps := (rules_keeps _).pure a
  keeps' := (rules_keeps _).pure b
  again := by
    rintro slots c after ⟨⟩ others _
    exact h

theorem throw (e e' : PlanError) : Alike R (throw e : Typing α) (throw e') where
  keeps := by rintro slots a after ⟨⟩
  keeps' := by rintro slots a after ⟨⟩
  again := by rintro slots a after ⟨⟩

theorem bind (ht : Alike R t u) (hR : ∀ a, R a a)
    (hf : ∀ a b, R a b → Alike S (f a) (g b)) : Alike S (t >>= f) (u >>= g) where
  keeps := (rules_keeps _).bind ht.keeps fun a => (hf a a (hR a)).keeps
  keeps' := (rules_keeps _).bind ht.keeps' fun a => (hf a a (hR a)).keeps'
  again := by
    intro slots c after h others hothers
    rw [runOn_bind] at h ⊢
    obtain ⟨⟨a, middle⟩, hmiddle, hafter⟩ := bind_eq_ok.1 h
    -- What the first one leaves is known at the end, and so in the other slots.
    have hknown := (hf a a (hR a)).keeps.knownIn hafter
    have hu := ht.again slots a middle hmiddle others (hknown.trans hothers)
    cases hrun : u.runOn others with
    | error e =>
        rw [hrun] at hu
        exact hu
    | ok b =>
        rw [hrun] at hu
        have hothers' := hothers.trans (ht.keeps'.knownIn hrun)
        exact (hf a b.1 hu).again middle c after hafter b.2 hothers'

theorem bind_eq (ht : Alike (· = ·) t u) (hf : ∀ a, Alike S (f a) (g a)) :
    Alike S (t >>= f) (u >>= g) := by
  refine ht.bind (fun _ => rfl) ?_
  rintro a _ rfl
  exact hf a

theorem bind_any (ht : Alike (fun _ _ => True) t u) (hf : ∀ a b, Alike S (f a) (g b)) :
    Alike S (t >>= f) (u >>= g) :=
  ht.bind (fun _ => trivial) fun a b _ => hf a b

/-- What does not depend on slots. -/
theorem ofExcept_bind {γ : Type} {x : Except PlanError γ} {f g : γ → Typing α}
    (hf : ∀ c, x = .ok c → Alike R (f c) (g c)) :
    Alike R (ofExcept x >>= f) (ofExcept x >>= g) := by
  cases x with
  | error e => exact throw e e
  | ok c => exact hf c rfl

theorem ofExcept (x : Except PlanError α) : Alike (· = ·) (ofExcept x) (ofExcept x) := by
  cases x with
  | error e => exact throw e e
  | ok a => exact pure rfl

theorem ofExcept_of_orMismatch {x y : Except PlanError α} (hy : OrMismatch (fun _ => True) y) :
    Alike (fun _ _ => True) (Typing.ofExcept x) (Typing.ofExcept y) where
  keeps := (ofExcept x).keeps
  keeps' := (ofExcept y).keeps
  again := by
    intro slots a after _ others _
    cases y with
    | error e => exact hy
    | ok b => trivial

/-- What can only fail with a type mismatch. -/
theorem of_orMismatch (ht : Keeps (fun _ => True) α t) (hu : Keeps (fun _ => True) α u)
    (h : ∀ others, OrMismatch (fun _ => True) (u.runOn others)) :
    Alike (fun _ _ => True) t u where
  keeps := ht
  keeps' := hu
  again _ _ _ _ others _ := h others

theorem mapM {ι : Type} {f : ι → Typing α} {l : List ι} (hR : ∀ a, R a a)
    (h : ∀ i ∈ l, Alike R (f i) (f i)) :
    Alike (List.Forall₂ R) (l.mapM f) (l.mapM f) := by
  induction l with
  | nil => exact pure .nil
  | cons i l ih =>
      rw [List.forall_mem_cons] at h
      rw [List.mapM_cons]
      refine h.1.bind hR fun a a' ha => ?_
      refine (ih h.2).bind (fun as => List.forall₂_same.2 fun a _ => hR a) fun as as' has => ?_
      exact pure (.cons ha has)

theorem mapM_eq {ι : Type} {f : ι → Typing α} {l : List ι}
    (h : ∀ i ∈ l, Alike (· = ·) (f i) (f i)) : Alike (· = ·) (l.mapM f) (l.mapM f) := by
  have hmap := mapM (fun _ => rfl) h
  rwa [List.forall₂_eq_eq_eq] at hmap

theorem forM {ι : Type} {f : ι → Typing PUnit} {l : List ι}
    (h : ∀ i ∈ l, Alike (fun _ _ => True) (f i) (f i)) :
    Alike (fun _ _ => True) (l.forM f) (l.forM f) := by
  induction l with
  | nil => exact pure trivial
  | cons i l ih =>
      rw [List.forall_mem_cons] at h
      exact h.1.bind_any fun _ _ => ih h.2

end Alike

end Typing

open Typing

namespace BoundExpr

/-! ## Expressions -/

theorem infer_orMismatch (e : BoundExpr) (type : Option DataType) (slots : Slots) :
    OrMismatch (fun _ => True) ((e.infer type).runOn slots) := by
  unfold infer
  split <;> trivial

theorem requireBoolean_orMismatch (e : BoundExpr) (type : Option DataType) (slots : Slots) :
    OrMismatch (fun _ => True) ((e.requireBoolean type).runOn slots) := by
  unfold requireBoolean
  split
  next => exact e.infer_orMismatch _ slots
  next => trivial
  next => rfl

theorem requireComparable_orMismatch (whole : BoundExpr) (leftType rightType : Option DataType)
    (slots : Slots) :
    OrMismatch (fun _ => True) ((whole.requireComparable leftType rightType).runOn slots) := by
  unfold requireComparable
  split
  next =>
    split
    · trivial
    · rfl
  next => trivial

theorem fit_orMismatch (e : BoundExpr) (target actual : Option DataType) (slots : Slots) :
    OrMismatch (fun _ => True) ((e.fit target actual).runOn slots) := by
  unfold fit
  split
  next => exact e.infer_orMismatch _ slots
  next =>
    split
    · trivial
    · rfl
  next => trivial

theorem inferBoth_orMismatch (left right : BoundExpr) (leftType rightType : Option DataType)
    (slots : Slots) :
    OrMismatch (fun _ => True) ((inferBoth left right leftType rightType).runOn slots) := by
  cases leftType with
  | none =>
      cases rightType with
      | none => rw [inferBoth_none_none]; trivial
      | some type => rw [inferBoth_none_some]; exact left.infer_orMismatch _ slots
  | some leftType =>
      cases rightType with
      | none => rw [inferBoth_some_none]; exact right.infer_orMismatch _ slots
      | some type => rw [inferBoth_some_some]; trivial

variable {leftType leftType' rightType rightType' : Option DataType}

theorem alike_inferBoth (left right : BoundExpr) :
    Alike (fun _ _ => True) (inferBoth left right leftType rightType)
      (inferBoth left right leftType' rightType') :=
  .of_orMismatch ((rules_keeps _).inferBoth (fun _ _ => trivial) (fun _ _ => trivial) _ _)
    ((rules_keeps _).inferBoth (fun _ _ => trivial) (fun _ _ => trivial) _ _)
    (left.inferBoth_orMismatch right _ _)

theorem alike_requireBoolean (e : BoundExpr) {type type' : Option DataType} :
    Alike (fun _ _ => True) (e.requireBoolean type) (e.requireBoolean type') :=
  .of_orMismatch ((rules_keeps _).requireBoolean (fun _ _ => trivial) _)
    ((rules_keeps _).requireBoolean (fun _ _ => trivial) _) (e.requireBoolean_orMismatch _)

theorem alike_fit (e : BoundExpr) (target : Option DataType) {type type' : Option DataType} :
    Alike (fun _ _ => True) (e.fit target type) (e.fit target type') :=
  .of_orMismatch ((rules_keeps _).fit (fun _ _ => trivial) _ _)
    ((rules_keeps _).fit (fun _ _ => trivial) _ _) (e.fit_orMismatch target _)

theorem alike_requireComparable (whole : BoundExpr) :
    Alike (fun _ _ => True) (whole.requireComparable leftType rightType)
      (whole.requireComparable leftType' rightType') :=
  .of_orMismatch ((rules_keeps _).requireComparable whole _ _)
    ((rules_keeps _).requireComparable whole _ _) (whole.requireComparable_orMismatch _ _)

/-- Operands of wider types make an operation of a wider type. -/
theorem alike_arithmeticType (whole : BoundExpr) (hleft : Widens leftType leftType')
    (hright : Widens rightType rightType') :
    Alike Widens (whole.arithmeticType leftType rightType)
      (whole.arithmeticType leftType' rightType') := by
  refine ⟨(rules_keeps _).arithmeticType whole _ _, (rules_keeps _).arithmeticType whole _ _, ?_⟩
  intro slots type after h others _
  rcases whole.arithmeticType_cases leftType rightType with ⟨odd, hodd⟩ | ⟨-, htype⟩
  · rw [hodd] at h
    cases h
  · rw [htype] at h
    cases h
    -- A wider operand need not be numeric where there was no type before.
    rcases whole.arithmeticType_cases leftType' rightType' with ⟨odd, hodd⟩ | ⟨hnumeric, htype'⟩
    · rw [hodd]
      rfl
    · rw [htype']
      have hleft' := hleft.trans (Widens.widest_left hnumeric)
      have hright' := hright.trans (Widens.widest_right hnumeric)
      exact hleft'.widest hright'

/-- An expression that is typed is typed with more known, or refused for a type mismatch. -/
theorem alike_resolve_and_comparison :
    (∀ e : BoundExpr, Alike Widens e.resolve e.resolve) ∧
      (∀ whole left right : BoundExpr, Alike (fun _ _ => True)
        (whole.resolveComparison left right) (whole.resolveComparison left right)) ∧
        ∀ (whole : BoundExpr) (lefts rights : List BoundExpr), Alike (fun _ _ => True)
          (whole.resolveComparisons lefts rights) (whole.resolveComparisons lefts rights) := by
  apply typing_induction
  case column =>
    intro c
    rw [resolve]
    exact .pure (.refl _)
  case literal =>
    intro value
    rw [resolve]
    exact .pure (.refl _)
  case parameter =>
    intro index
    have hkeeps := (rules_keeps fun _ => True).resolve
      (e := .parameter index) fun _ _ => trivial
    refine ⟨hkeeps, hkeeps, ?_⟩
    rw [resolve]
    rintro slots type after ⟨⟩ others hothers
    show Widens (slots.type? index) (others.type? index)
    cases htype : slots.type? index with
    | none => trivial
    | some type =>
        rw [hothers index type htype]
        exact .refl _
  case comparison =>
    intro op left right hop ih
    rw [resolve_comparison hop]
    exact ih.bind_any fun _ _ => .pure (.refl _)
  case logical =>
    intro op left right hop ihl ihr
    rw [resolve_logical hop]
    refine (ihl.bind Widens.refl fun _ _ _ => left.alike_requireBoolean).bind_any fun _ _ => ?_
    refine (ihr.bind Widens.refl fun _ _ _ => right.alike_requireBoolean).bind_any fun _ _ => ?_
    exact .pure (.refl _)
  case arithmetic =>
    intro op left right hop ihl ihr
    rw [resolve_arithmetic hop]
    refine ihl.bind Widens.refl fun _ _ hleft => ihr.bind Widens.refl fun _ _ hright => ?_
    refine (left.alike_inferBoth right).bind_any fun _ _ => ?_
    exact alike_arithmeticType _ hleft hright
  case not =>
    intro operand ih
    rw [resolve_not]
    refine (ih.bind Widens.refl fun _ _ _ => operand.alike_requireBoolean).bind_any fun _ _ => ?_
    exact .pure (.refl _)
  case isNull =>
    intro operand negated hrow ih
    rw [resolve_isNull hrow]
    exact ih.bind Widens.refl fun _ _ _ => .pure (.refl _)
  case isNull_row =>
    intro operand negated hrow
    rw [resolve_isNull_of_isRow hrow]
    exact .pure (.refl _)
  case between =>
    intro operand low high negated ihlow ihhigh
    rw [resolve]
    refine ihlow.bind_any fun _ _ => ?_
    exact ihhigh.bind_any fun _ _ => .pure (.refl _)
  case row =>
    intro items
    rw [resolve]
    exact .throw _ _
  case rows =>
    intro whole lefts rights hlength ih
    rw [resolveComparison_rows hlength]
    exact ih
  case uneven =>
    intro whole lefts rights hlength
    rw [resolveComparison_of_length_ne hlength]
    exact .throw _ _
  case mixed =>
    intro whole left right hne hrow
    rw [resolveComparison_mixed hrow hne]
    exact .throw _ _
  case scalars =>
    intro whole left right hrow ihl ihr
    rw [resolveComparison_scalars hrow]
    refine ihl.bind Widens.refl fun _ _ _ => ihr.bind Widens.refl fun _ _ _ => ?_
    refine (left.alike_inferBoth right).bind_any fun _ _ => ?_
    exact whole.alike_requireComparable
  case items =>
    intro whole left lefts right rights ih ihs
    rw [resolveComparisons]
    exact ih.bind_any fun _ _ => ihs
  case no_items =>
    intro whole lefts rights hnone
    rw [resolveComparisons_of_nil hnone]
    exact .pure trivial

theorem alike_resolve (e : BoundExpr) : Alike Widens e.resolve e.resolve :=
  alike_resolve_and_comparison.1 e

theorem alike_resolvePredicate (e : BoundExpr) :
    Alike (fun _ _ => True) e.resolvePredicate e.resolvePredicate :=
  e.alike_resolve.bind Widens.refl fun _ _ _ => e.alike_requireBoolean

theorem alike_resolveFor (e : BoundExpr) (target : Option DataType) :
    Alike (fun _ _ => True) (e.resolveFor target) (e.resolveFor target) := by
  rw [resolveFor_eq]
  exact e.alike_resolve.bind Widens.refl fun _ _ _ => e.alike_fit target

end BoundExpr

/-! ## Queries -/

/-- A result with more known: it has the same name, and a wider type. -/
def ResultColumn.Widens (result result' : ResultColumn) : Prop :=
  result.name = result'.name ∧ QueryPlanner.Widens result.type result'.type

theorem ResultColumn.Widens.refl (result : ResultColumn) : result.Widens result :=
  ⟨rfl, .refl _⟩

theorem BoundSelect.alike_resolve (q : BoundSelect) :
    Alike (List.Forall₂ ResultColumn.Widens) q.resolve q.resolve := by
  have hwhere : Alike (fun _ _ => True) q.resolveWhere q.resolveWhere := by
    unfold resolveWhere
    split
    next => exact .pure trivial
    next predicate _ => exact predicate.alike_resolvePredicate
  have hresults : Alike (List.Forall₂ ResultColumn.Widens) q.resolveResults q.resolveResults := by
    refine Alike.mapM ResultColumn.Widens.refl fun item _ => ?_
    exact item.expr.alike_resolve.bind Widens.refl fun _ _ htype => .pure ⟨rfl, htype⟩
  have horder : Alike (fun _ _ => True) q.resolveOrder q.resolveOrder := by
    refine Alike.forM fun item _ => ?_
    exact item.expr.alike_resolve.bind Widens.refl fun _ _ _ => .pure trivial
  rw [resolve_eq]
  refine hwhere.bind_any fun _ _ => ?_
  refine hresults.bind (fun results => ?_) fun _ _ hwider => ?_
  · exact List.forall₂_same.2 fun result _ => .refl result
  · exact horder.bind_any fun _ _ => .pure hwider

end QueryPlanner
