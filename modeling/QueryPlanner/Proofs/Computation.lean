import Mathlib.Data.List.Forall2
import QueryPlanner.Plan.Compile
import QueryPlanner.Proofs.Except

/-!
# Steps of the compilation

What a sequence of steps gives is found step by step.  Two facts are told of a computation at once:
a property of what it gives, and that it is not refused for the shape of a key range, which no
statement can be at fault for.

Main statements: the rules `Gives.bind` and `Typing.Gives.bind`, and those for lists built on them.
-/

namespace QueryPlanner

variable {α β : Type}

/-! ## Properties of computations that may fail -/

/-- The computation gives something with a property, or fails for another reason than the shape of
a key range. -/
def Gives (P : α → Prop) : Except PlanError α → Prop
  | .ok a => P a
  | .error e => e.code.category ≠ .structural

namespace Gives

variable {P : α → Prop} {Q : β → Prop} {x : Except PlanError α} {f : α → Except PlanError β}

theorem bind (hx : Gives P x) (hf : ∀ a, P a → Gives Q (f a)) : Gives Q (x >>= f) := by
  cases x with
  | error e => exact hx
  | ok a => exact hf a hx

theorem map {g : α → β} {Q : β → Prop} (hx : Gives (fun a => Q (g a)) x) : Gives Q (x.map g) := by
  cases x with
  | error e => exact hx
  | ok a => exact hx

theorem imp {R : α → Prop} (hx : Gives P x) (h : ∀ a, P a → R a) : Gives R x := by
  cases x with
  | error e => exact hx
  | ok a => exact h a hx

theorem and {R : α → Prop} (hx : Gives P x) (hx' : Gives R x) : Gives (fun a => P a ∧ R a) x := by
  cases x with
  | error e => exact hx
  | ok a => exact ⟨hx, hx'⟩

/-- A computation whose result is not needed. -/
theorem discard {y : Except PlanError β} (hx : Gives P x) (hy : Gives Q y) :
    Gives Q (discard x >>= fun _ => y) := by
  cases x with
  | error e => exact hx
  | ok a => exact hy

/-- What is given in fact has the property that it was given. -/
theorem and_eq (hx : Gives P x) : Gives (fun a => x = .ok a ∧ P a) x := by
  cases x with
  | error e => exact hx
  | ok a => exact ⟨rfl, hx⟩

theorem of_eq_ok {a : α} (hx : Gives P x) (h : x = .ok a) : P a := by
  subst h
  exact hx

theorem of_eq_error {e : PlanError} (hx : Gives P x) (h : x = .error e) :
    e.code.category ≠ .structural := by
  subst h
  exact hx

/-- A list of computations gives what its members do. -/
theorem mapM {l : List α} (h : ∀ a ∈ l, Gives Q (f a)) : Gives (∀ b ∈ ·, Q b) (l.mapM f) := by
  induction l with
  | nil => exact fun b hb => nomatch hb
  | cons a l ih =>
      rw [List.forall_mem_cons] at h
      rw [List.mapM_cons]
      refine h.1.bind fun b hb => (ih h.2).bind fun bs hbs => ?_
      exact List.forall_mem_cons.2 ⟨hb, hbs⟩

theorem forM {g : α → Except PlanError PUnit} {l : List α}
    (h : ∀ a ∈ l, Gives (fun _ => True) (g a)) : Gives (fun _ => True) (l.forM g) := by
  induction l with
  | nil => exact trivial
  | cons a l ih =>
      rw [List.forall_mem_cons] at h
      show Gives _ (g a >>= fun _ => l.forM g)
      exact h.1.bind fun _ _ => ih h.2

theorem option_mapM {o : Option α} (h : ∀ a ∈ o, Gives Q (f a)) :
    Gives (∀ b ∈ ·, Q b) (o.mapM f) := by
  cases o with
  | none => exact fun b hb => nomatch hb
  | some a =>
      refine (h a rfl).bind fun b hb => ?_
      rintro b' ⟨⟩
      exact hb

end Gives

/-! ## Properties of computations on slots -/

namespace Typing

variable {t : Typing α} {f : α → Typing β} {slots : Slots}

theorem runOn_bind : (t >>= f).runOn slots = t.runOn slots >>= fun a => (f a.1).runOn a.2 := by
  simp only [runOn, bind, EStateM.bind, EStateM.run, Except.bind]
  cases t slots <;> rfl

theorem runOn_map (g : α → β) :
    (g <$> t).runOn slots = (t.runOn slots).map fun a => (g a.1, a.2) := by
  simp only [runOn, Functor.map, EStateM.map, EStateM.run, Except.map]
  cases t slots <;> rfl

theorem runOn_ofExcept (x : Except PlanError α) :
    (ofExcept x).runOn slots = x.map fun a => (a, slots) := by
  cases x <;> rfl

theorem runOn_ofExcept_bind {x : Except PlanError α} :
    (ofExcept x >>= f).runOn slots = x >>= fun a => (f a).runOn slots := by
  rw [runOn_bind, runOn_ofExcept]
  cases x <;> rfl

theorem runOn_bind_eq_ok {b : β} {after : Slots} :
    (t >>= f).runOn slots = .ok (b, after) ↔
      ∃ a between, t.runOn slots = .ok (a, between) ∧ (f a).runOn between = .ok (b, after) := by
  rw [runOn_bind, bind_eq_ok, Prod.exists]

theorem runOn_pure_eq_ok {a b : α} {after : Slots} :
    (pure a : Typing α).runOn slots = .ok (b, after) ↔ b = a ∧ after = slots := by
  show Except.ok (a, slots) = Except.ok (b, after) ↔ _
  rw [Except.ok.injEq, Prod.mk.injEq, eq_comm, eq_comm (a := slots)]

theorem runOn_mapM_cons {a : α} {l : List α} {bs : List β} {after : Slots} :
    ((a :: l).mapM f).runOn slots = .ok (bs, after) ↔
      ∃ b between rest, (f a).runOn slots = .ok (b, between) ∧
        (l.mapM f).runOn between = .ok (rest, after) ∧ bs = b :: rest := by
  rw [List.mapM_cons]
  simp only [runOn_bind_eq_ok, runOn_pure_eq_ok]
  constructor
  · rintro ⟨b, between, hb, rest, _, hrest, hbs, rfl⟩
    exact ⟨b, between, rest, hb, hrest, hbs⟩
  · rintro ⟨b, between, rest, hb, hrest, hbs⟩
    exact ⟨b, between, hb, rest, after, hrest, hbs, rfl⟩

/-- From all slots, the computation gives something with a property, or fails for another reason
than the shape of a key range. -/
def Gives (P : α → Prop) (t : Typing α) : Prop :=
  ∀ slots, QueryPlanner.Gives (fun a => P a.1) (t.runOn slots)

namespace Gives

variable {P : α → Prop} {Q : β → Prop}

theorem pure {a : α} (h : P a) : Gives P (pure a) := fun _ => h

theorem throw {e : PlanError} (h : e.code.category ≠ .structural) :
    Gives P (throw e) := fun _ => h

theorem bind (ht : Gives P t) (hf : ∀ a, P a → Gives Q (f a)) : Gives Q (t >>= f) := by
  intro slots
  rw [runOn_bind]
  exact (ht slots).bind fun a ha => hf a.1 ha a.2

theorem imp {R : α → Prop} (ht : Gives P t) (h : ∀ a, P a → R a) : Gives R t :=
  fun slots => (ht slots).imp fun a => h a.1

theorem and {R : α → Prop} (ht : Gives P t) (ht' : Gives R t) : Gives (fun a => P a ∧ R a) t :=
  fun slots => (ht slots).and (ht' slots)

theorem ofExcept {x : Except PlanError α} (hx : QueryPlanner.Gives P x) :
    Gives P (ofExcept x) := by
  intro slots
  rw [runOn_ofExcept]
  exact QueryPlanner.Gives.map hx

/-- Computations of a list give their results in order. -/
theorem mapM_forall₂ {R : α → β → Prop} {l : List α} (h : ∀ a ∈ l, Gives (R a) (f a)) :
    Gives (List.Forall₂ R l) (l.mapM f) := by
  induction l with
  | nil => exact pure .nil
  | cons a l ih =>
      rw [List.forall_mem_cons] at h
      rw [List.mapM_cons]
      exact h.1.bind fun b hb => (ih h.2).bind fun bs hbs => pure (.cons hb hbs)

theorem mapM {l : List α} (h : ∀ a ∈ l, Gives Q (f a)) : Gives (∀ b ∈ ·, Q b) (l.mapM f) := by
  refine (mapM_forall₂ (R := fun _ => Q) h).imp fun bs hbs => ?_
  clear h
  induction hbs with
  | nil => nofun
  | cons hb _ ih => exact List.forall_mem_cons.2 ⟨hb, ih⟩

theorem length_mapM {l : List α} (h : ∀ a ∈ l, Gives Q (f a)) :
    Gives (fun bs => bs.length = l.length) (l.mapM f) :=
  (mapM_forall₂ (R := fun _ => Q) h).imp fun _ hbs => hbs.length_eq.symm

/-- What is read off the results, if it is read off what they are computed from. -/
theorem mapM_map {γ : Type} {g : β → γ} {k : α → γ} {l : List α}
    (h : ∀ a ∈ l, Gives (fun b => g b = k a) (f a)) :
    Gives (fun bs => bs.map g = l.map k) (l.mapM f) := by
  refine (mapM_forall₂ h).imp fun bs hbs => ?_
  clear h
  induction hbs with
  | nil => rfl
  | cons hb _ ih => rw [List.map_cons, List.map_cons, hb, ih]

end Gives

end Typing

/-! ## Plans -/

namespace Statement

/-- The rows that a statement skips. -/
def offset : Statement → Option UInt64
  | .select query => query.offset
  | _ => none

/-- The rows that a statement returns at most. -/
def limit : Statement → Option UInt64
  | .select query => query.limit
  | _ => none

/-- The plan of a statement, given its operators, its results and the slots of its placeholders. -/
def plan (statement : Statement) (rows : (Operator × List ResultColumn) × Slots) : Plan :=
  { statement := statement.text, root := rows.1.1, results := rows.1.2, parameters := rows.2,
    offset := statement.offset, limit := statement.limit }

/-- The outcome of a statement that has no rows to compile, or too many placeholders. -/
def fixedOutcome? (statement : Statement) : Option (Except PlanError Outcome) :=
  match statement.category with
  | .definition => some (.ok .notApplicable)
  | .unsupported => some (.error (.unsupported statement.text))
  | .manipulation =>
      if Session.maxParameters < statement.parameterCount then
        some (.error (.invalidStatement
          (.tooManyParameters statement.parameterCount Session.maxParameters)))
      else none

theorem fixedOutcome?_cases {statement : Statement} {outcome : Except PlanError Outcome}
    (h : statement.fixedOutcome? = some outcome) :
    outcome = .ok .notApplicable ∨ outcome = .error (.unsupported statement.text) ∨
      outcome = .error (.invalidStatement
        (.tooManyParameters statement.parameterCount Session.maxParameters)) := by
  unfold fixedOutcome? at h
  split at h
  next =>
    cases h
    exact .inl rfl
  next =>
    cases h
    exact .inr (.inl rfl)
  next =>
    split at h
    · cases h
      exact .inr (.inr rfl)
    · cases h

/-- Statements whose rows are compiled have few placeholders. -/
theorem parameterCount_le_of_fixedOutcome? {statement : Statement}
    (h : statement.fixedOutcome? = none) : statement.parameterCount ≤ Session.maxParameters := by
  unfold fixedOutcome? at h
  split at h
  next => cases h
  next => cases h
  next =>
    split at h
    next => cases h
    next hcount => exact Nat.not_lt.1 hcount

end Statement

namespace Session

variable (s : Session) (statement : Statement) (hints : List (Option DataType))

/-- The slots of a statement before it is compiled. -/
abbrev startSlots : Slots := .ofHints statement.parameterCount hints

theorem compilePlan_eq (h : statement.parameterCount ≤ maxParameters) :
    s.compilePlan statement hints =
      ((s.compileRows statement).runOn (startSlots statement hints)).map statement.plan := by
  unfold compilePlan
  rw [if_neg (Nat.not_lt.2 h)]
  show ((s.compileRows statement).runOn (startSlots statement hints) >>= _) = _
  cases (s.compileRows statement).runOn (startSlots statement hints) with
  | error e => rfl
  | ok rows => cases statement <;> rfl

/-- A statement whose outcome is not fixed beforehand has the plan of its rows. -/
theorem compile_eq : s.compile statement hints =
    statement.fixedOutcome?.getD
      (((s.compileRows statement).runOn (startSlots statement hints)).map fun rows =>
        .plan (statement.plan rows)) := by
  unfold compile Statement.fixedOutcome?
  cases statement.category with
  | definition => rfl
  | unsupported => rfl
  | manipulation =>
      dsimp only
      by_cases hcount : maxParameters < statement.parameterCount
      · unfold compilePlan
        rw [if_pos hcount, if_pos hcount]
        rfl
      · rw [if_neg hcount, compilePlan_eq s statement hints (Nat.not_lt.1 hcount)]
        cases (s.compileRows statement).runOn (startSlots statement hints) <;> rfl

/-- A statement that has a plan has the plan of its rows. -/
theorem compile_eq_plan {s : Session} {statement : Statement} {hints : List (Option DataType)}
    {p : Plan} (h : s.compile statement hints = .ok (.plan p)) :
    statement.fixedOutcome? = none ∧
      ∃ rows, (s.compileRows statement).runOn (startSlots statement hints) = .ok rows ∧
        p = statement.plan rows := by
  rw [compile_eq] at h
  cases hfixed : statement.fixedOutcome? with
  | some outcome =>
      rw [hfixed] at h
      rcases Statement.fixedOutcome?_cases hfixed with rfl | rfl | rfl <;> cases h
  | none =>
      rw [hfixed] at h
      obtain ⟨rows, hrows, hp⟩ := map_eq_ok.1 h
      cases hp
      exact ⟨rfl, rows, hrows, rfl⟩

end Session

end QueryPlanner
