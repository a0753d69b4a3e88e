import QueryPlanner.Proofs.Plan.Rerun
import QueryPlanner.Proofs.Typing.Acceptance

/-!
# Types that the caller knows

The caller of a compilation may know types of placeholders.  They are the types that the plan says
the placeholders have, whatever the statement would make of them: a slot with a type keeps it.
Typing fills other slots of placeholders that it meets, and these stay filled when it fails.

Main statement: `compile_hints`.
-/

namespace QueryPlanner

/-- The slots before and after an expression was typed: some of its placeholders have got a
type. -/
structure BoundExpr.SlotsFilled (e : BoundExpr) (before after : Slots) : Prop
    extends Slots.Extends before after where
  others : ∀ n : Nat, (∀ i, e.Contains (.parameter i) → i.toNat ≠ n) → after[n]? = before[n]?

theorem Typing.Fills.slotsFilled {α : Type} {t : Typing α} {e : BoundExpr}
    (ht : Fills (· ∈ e.looks) α t) (slots : Slots) : e.SlotsFilled slots (t.slotsAfter slots) := by
  refine ⟨ht.extends slots, fun n hn => ?_⟩
  rcases (ht slots).2 n with hsame | ⟨-, i, hi, rfl⟩
  · exact hsame
  · exact absurd rfl (hn i (BoundExpr.mem_looks_iff_contains.1 hi))

namespace Session

/-- The slots of a plan have the types that the caller knew. -/
theorem startSlots_extends {s : Session} {statement : Statement} {hints : List (Option DataType)}
    {p : Plan} (h : s.compile statement hints = .ok (.plan p)) :
    (startSlots statement hints).Extends p.parameters := by
  obtain ⟨hfixed, rows, hrows, rfl⟩ := compile_eq_plan h
  exact (s.alike_compileRows statement).keeps.extends hrows (length_startSlots_le hfixed hints)

/-- Typing an expression, as a predicate or for a column or as it is, keeps the number of slots and
each slot that has a type, and changes only slots of placeholders in the expression, whether it
succeeds or fails.  So in each plan a placeholder has the type that the caller knew, and types that
the caller gives beyond the last placeholder make no difference to the outcome. -/
theorem compile_hints :
    (∀ (e : BoundExpr) (slots : Slots) (target : Option DataType),
        e.SlotsFilled slots (e.resolve.slotsAfter slots) ∧
          e.SlotsFilled slots (e.resolvePredicate.slotsAfter slots) ∧
          e.SlotsFilled slots ((e.resolveFor target).slotsAfter slots)) ∧
      (∀ (s : Session) (statement : Statement) (hints : List (Option DataType)) (p : Plan),
        s.compile statement hints = .ok (.plan p) →
          p.parameters.length = statement.parameterCount ∧
            ∀ n < statement.parameterCount, ∀ type, hints[n]? = some (some type) →
              p.parameters[n]? = some (some type)) ∧
      ∀ (s : Session) (statement : Statement) (hints : List (Option DataType)),
        s.compile statement (hints.take statement.parameterCount) = s.compile statement hints := by
  refine ⟨fun e slots target => ?_, fun s statement hints p hp => ?_, fun s statement hints => ?_⟩
  · have hfills := Typing.rules_fills (· ∈ e.looks)
    exact ⟨(hfills.resolve fun _ hi => hi).slotsFilled slots,
      (hfills.resolvePredicate fun _ hi => hi).slotsFilled slots,
      (hfills.resolveFor (fun _ hi => hi) target).slotsFilled slots⟩
  · have hextends := startSlots_extends hp
    refine ⟨hextends.length.trans (Slots.length_ofHints _ hints), fun n hn type htype => ?_⟩
    refine hextends.types n type ?_
    rw [Slots.getElem?_ofHints hn, htype]
    rfl
  · rw [compile_eq, compile_eq, startSlots, startSlots, Slots.ofHints_take]

end Session

/-- The query `SELECT $1 + 5 AS n`. -/
def sumQuery : Select :=
  { items := [.expr (.binary .plus (.parameter 0) (.literal (.integer 5))) (some "n") none] }

def sumPlan : Plan :=
  { statement := "SELECT"
    root := .project [⟨.binary .plus (.parameter 0) (.literal (.integer 5)), "n"⟩] (.values [[]])
    results := [⟨"n", some .bigint⟩]
    parameters := [some .bigint]
    offset := none
    limit := none }

/-- Types are given for two placeholders: the first keeps its type, which is not the one that it
gets otherwise. -/
theorem compile_hints_sumQuery :
    ∃ p, emptySession.compile (.select sumQuery) [some .integer, some .varchar] = .ok (.plan p) ∧
      p.parameters[0]? = some (some .integer) ∧
      emptySession.compile (.select sumQuery) [some .integer] = .ok (.plan p) := by
  have hrows : (emptySession.compileRows (.select sumQuery)).runOn [some .integer] =
      .ok ((sumPlan.root, sumPlan.results), [some .integer]) := by with_unfolding_all rfl
  have hslots : Session.startSlots (.select sumQuery) [some .integer, some .varchar] =
      [some .integer] := rfl
  have hplan : emptySession.compile (.select sumQuery) [some .integer, some .varchar] =
      .ok (.plan { sumPlan with parameters := [some .integer] }) := by
    rw [Session.compile_eq, hslots, hrows]
    rfl
  refine ⟨_, hplan, ?_, ?_⟩
  · exact (Session.compile_hints.2.1 _ _ _ _ hplan).2 0 Nat.one_pos .integer rfl
  · exact (Session.compile_hints.2.2 _ _ [some .integer, some .varchar]).trans hplan

end QueryPlanner
