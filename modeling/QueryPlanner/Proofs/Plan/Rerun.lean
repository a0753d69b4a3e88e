import QueryPlanner.Proofs.Plan.Placeholders

/-!
# Compiling again with the types that were found

A plan says which types the placeholders of its statement got.  They get them in one pass: what is
found out late does not count for what was looked at before.  Compiling the statement again, given
these types, is where it does.  Types and results can then turn out wider, or not to fit.  Nothing
changes if each placeholder got its type the first time that it was found without one
(`compile_again_eq`).

Main statement: `compile_again`.  The types that were found need not fit: `conflictQuery_mismatch`.
-/

namespace QueryPlanner

/-- A plan of the same statement for which more is known of the placeholders. -/
structure Plan.SettledBy (p p' : Plan) : Prop where
  statement : p'.statement = p.statement
  root : p'.root = p.root
  results : List.Forall₂ ResultColumn.Widens p.results p'.results
  parameters : p.parameters.Extends p'.parameters
  offset : p'.offset = p.offset
  limit : p'.limit = p.limit

theorem forall₂_widens_trans {first second third : List ResultColumn}
    (h : List.Forall₂ ResultColumn.Widens first second)
    (h' : List.Forall₂ ResultColumn.Widens second third) :
    List.Forall₂ ResultColumn.Widens first third := by
  induction h generalizing third with
  | nil => exact h'
  | cons hhead _ ih =>
      cases h' with
      | cons hhead' htail' =>
          exact .cons ⟨hhead.1.trans hhead'.1, hhead.2.trans hhead'.2⟩ (ih htail')

theorem Slots.Extends.trans {first second third : Slots} (h : first.Extends second)
    (h' : second.Extends third) : first.Extends third :=
  ⟨h'.length.trans h.length, fun n type hn => h'.types n type (h.types n type hn)⟩

theorem Plan.SettledBy.trans {first second third : Plan} (h : first.SettledBy second)
    (h' : second.SettledBy third) : first.SettledBy third where
  statement := h'.statement.trans h.statement
  root := h'.root.trans h.root
  results := forall₂_widens_trans h.results h'.results
  parameters := h.parameters.trans h'.parameters
  offset := h'.offset.trans h.offset
  limit := h'.limit.trans h.limit

namespace Session

variable {s : Session} {statement : Statement} {hints : List (Option DataType)} {p : Plan}

theorem startSlots_of_length {slots : Slots} (h : slots.length = statement.parameterCount) :
    startSlots statement slots = slots := by
  unfold startSlots Slots.ofHints
  rw [h, List.take_of_length_le (Nat.le_of_eq h), Nat.sub_self]
  exact List.append_nil slots

/-- Each slot of a statement that is compiled has a placeholder. -/
theorem length_startSlots_le (h : statement.fixedOutcome? = none)
    (hints : List (Option DataType)) : (startSlots statement hints).length ≤ UInt64.size := by
  rw [startSlots, Slots.length_ofHints]
  exact Nat.le_trans (Statement.parameterCount_le_of_fixedOutcome? h) (by decide)

/-- The types of a plan are those of the placeholders of its statement. -/
theorem startSlots_parameters (h : s.compile statement hints = .ok (.plan p)) :
    startSlots statement p.parameters = p.parameters := by
  obtain ⟨-, rows, hrows, rfl⟩ := compile_eq_plan h
  have hkeeps := (s.alike_compileRows statement).keeps _ rows.1 rows.2 hrows
  exact startSlots_of_length (hkeeps.1.trans (Slots.length_ofHints _ hints))

/-- Given the types that were found, a statement has a plan with more known, or there is a type
mismatch. -/
theorem compile_again_orMismatch (h : s.compile statement hints = .ok (.plan p)) :
    OrMismatch (fun outcome => ∃ p', outcome = .plan p' ∧ p.SettledBy p')
      (s.compile statement p.parameters) := by
  have hstart := startSlots_parameters h
  obtain ⟨hfixed, rows, hrows, rfl⟩ := compile_eq_plan h
  have halike := s.alike_compileRows statement
  have hagain := halike.again _ rows.1 rows.2 hrows rows.2 fun _ _ hi => hi
  have hlength := (halike.keeps _ rows.1 rows.2 hrows).1
  rw [compile_eq, hfixed, hstart]
  show OrMismatch _ (((s.compileRows statement).runOn rows.2).map _)
  cases hrun : (s.compileRows statement).runOn rows.2 with
  | error e =>
      rw [hrun] at hagain
      exact hagain
  | ok rows' =>
      rw [hrun] at hagain
      refine ⟨statement.plan rows', rfl, rfl, hagain.1.symm, hagain.2, ?_, rfl, rfl⟩
      refine halike.keeps.extends hrun ?_
      show rows.2.length ≤ UInt64.size
      rw [hlength]
      exact length_startSlots_le hfixed hints

/-- The same plan again.  A placeholder that was given a type and found without one a single time
was given it there: no look that leaves a placeholder without a type comes before that. -/
theorem compile_again_eq (h : s.compile statement hints = .ok (.plan p))
    (honce : ∀ i, p.parameters.type? i ≠ none →
      (s.openLooks statement (startSlots statement hints)).count i ≤ 1) :
    s.compile statement p.parameters = .ok (.plan p) := by
  have hstart := startSlots_parameters h
  obtain ⟨hfixed, rows, hrows, rfl⟩ := compile_eq_plan h
  have hagain := (s.repeats_compileRows statement).again _ rows.1 rows.2 hrows rows.2
    { length := rfl
      known := fun _ _ => id
      same := fun _ _ => rfl
      once := honce }
  rw [compile_eq, hfixed, hstart]
  show ((s.compileRows statement).runOn rows.2).map _ = _
  rw [hagain]
  rfl

/-- Compiles a statement again and again, given the types that were found before. -/
def recompile (s : Session) (statement : Statement) :
    Nat → List (Option DataType) → Except PlanError Outcome
  | 0, hints => s.compile statement hints
  | n + 1, hints =>
      match s.compile statement hints with
      | .ok (.plan p) => s.recompile statement n p.parameters
      | outcome => outcome

/-- Whether compiling again and again, from a plan on, has come to an end: with a plan whose types
give the same plan, or with a type mismatch. -/
def Settled (s : Session) (statement : Statement) (p : Plan) :
    Except PlanError Outcome → Prop :=
  OrMismatch fun outcome => ∃ p', outcome = .plan p' ∧ p.SettledBy p' ∧
    s.compile statement p'.parameters = .ok (.plan p')

/-- Compiling again and again comes to an end.  Each time but the last one some placeholder gets a
type: the induction is on the number of those that have none. -/
theorem exists_recompile (h : s.compile statement hints = .ok (.plan p)) :
    ∃ n ≤ p.parameters.countOpen,
      s.Settled statement p (s.recompile statement n p.parameters) := by
  generalize hopen : p.parameters.countOpen = bound
  induction bound using Nat.strongRecOn generalizing hints p with
  | _ bound ih =>
      subst hopen
      have hagain := compile_again_orMismatch h
      cases hrun : s.compile statement p.parameters with
      | error e =>
          rw [hrun] at hagain
          refine ⟨0, Nat.zero_le _, ?_⟩
          rw [recompile, hrun]
          exact hagain
      | ok outcome =>
          rw [hrun] at hagain
          obtain ⟨p', rfl, hsettled⟩ := hagain
          -- The same types give the same plan once more, and more types leave fewer open slots.
          by_cases hsame : p'.parameters = p.parameters
          · refine ⟨0, Nat.zero_le _, ?_⟩
            rw [recompile, hrun]
            exact ⟨p', rfl, hsettled, by rw [hsame, hrun]⟩
          · have hlt := hsettled.parameters.countOpen_lt hsame
            obtain ⟨n, hn, hend⟩ := ih _ hlt hrun rfl
            refine ⟨n + 1, by omega, ?_⟩
            rw [recompile, hrun]
            show s.Settled statement p (s.recompile statement n p'.parameters)
            revert hend
            cases s.recompile statement n p'.parameters with
            | error e => exact id
            | ok last =>
                rintro ⟨p'', rfl, hsettled', hfixed⟩
                exact ⟨p'', rfl, hsettled.trans hsettled', hfixed⟩

/-- Compiling a statement again, given the types that were found for its placeholders, gives a plan
with the same operators, in which types are as before, wider or found now, or there is a type
mismatch.  It gives the same plan if no look that leaves a placeholder without a type is followed by
one that gives it a type, so that each placeholder with a type was found without one once at most.
Compiling it again and again ends, with a plan that its own types give again or with a type
mismatch, after at most one time more than there are placeholders without type. -/
theorem compile_again (h : s.compile statement hints = .ok (.plan p)) :
    OrMismatch (fun outcome => ∃ p', outcome = .plan p' ∧ p.SettledBy p')
        (s.compile statement p.parameters) ∧
      ((∀ i, p.parameters.type? i ≠ none →
          (s.openLooks statement (startSlots statement hints)).count i ≤ 1) →
        s.compile statement p.parameters = .ok (.plan p)) ∧
      ∃ n ≤ p.parameters.countOpen,
        s.Settled statement p (s.recompile statement n p.parameters) :=
  ⟨compile_again_orMismatch h, compile_again_eq h, exists_recompile h⟩

end Session

/-- A session without tables. -/
def emptySession : Session := { catalog := .empty, defaultSchema := "main" }

/-- The query `SELECT $1 + 5 AS n, $1 BETWEEN 1 AND $1 AS b`. -/
def rangeQuery : Select :=
  { items := [.expr (.binary .plus (.parameter 0) (.literal (.integer 5))) (some "n") none,
      .expr (.between (.parameter 0) (.literal (.integer 1)) (.parameter 0) false) (some "b") none] }

def rangePlan : Plan :=
  { statement := "SELECT"
    root := .project
      [⟨.binary .plus (.parameter 0) (.literal (.integer 5)), "n"⟩,
        ⟨.between (.parameter 0) (.literal (.integer 1)) (.parameter 0) false, "b"⟩] (.values [[]])
    results := [⟨"n", some .bigint⟩, ⟨"b", some .boolean⟩]
    parameters := [some .bigint]
    offset := none
    limit := none }

/-- The first look gives the placeholder its type, and the other three find it. -/
theorem compile_again_rangeQuery :
    emptySession.compile (.select rangeQuery) [] = .ok (.plan rangePlan) ∧
      emptySession.openLooks (.select rangeQuery) [none] = [0] ∧
        emptySession.compile (.select rangeQuery) [some .bigint] = .ok (.plan rangePlan) := by
  have hrows : (emptySession.compileRows (.select rangeQuery)).runOn [none] =
      .ok ((rangePlan.root, rangePlan.results), rangePlan.parameters) := by with_unfolding_all rfl
  have hslots : Session.startSlots (.select rangeQuery) [] = [none] := rfl
  have hplan : emptySession.compile (.select rangeQuery) [] = .ok (.plan rangePlan) := by
    rw [Session.compile_eq, hslots, hrows]
    rfl
  have hlooks : emptySession.openLooks (.select rangeQuery) [none] = [0] := by with_unfolding_all rfl
  refine ⟨hplan, hlooks, (Session.compile_again hplan).2.1 fun i _ => ?_⟩
  rw [hslots, hlooks]
  exact List.count_le_length

/-- The query `SELECT $1 + $1 AS a, NOT $1 AS b`. -/
def conflictQuery : Select :=
  { items := [.expr (.binary .plus (.parameter 0) (.parameter 0)) (some "a") none,
      .expr (.not (.parameter 0)) (some "b") none] }

def conflictPlan : Plan :=
  { statement := "SELECT"
    root := .project
      [⟨.binary .plus (.parameter 0) (.parameter 0), "a"⟩, ⟨.not (.parameter 0), "b"⟩]
      (.values [[]])
    results := [⟨"a", none⟩, ⟨"b", some .boolean⟩]
    parameters := [some .boolean]
    offset := none
    limit := none }

/-- The first result says nothing of types, and the type that is found afterwards does not fit
there. -/
theorem conflictQuery_mismatch :
    emptySession.compile (.select conflictQuery) [] = .ok (.plan conflictPlan) ∧
      emptySession.compile (.select conflictQuery) conflictPlan.parameters =
        .error (.typeMismatch "$1 + $1" (.notNumeric .boolean)) := by
  have hrows : (emptySession.compileRows (.select conflictQuery)).runOn [none] =
      .ok ((conflictPlan.root, conflictPlan.results), conflictPlan.parameters) := by with_unfolding_all rfl
  have hagain : (emptySession.compileRows (.select conflictQuery)).runOn [some .boolean] =
      .error (.typeMismatch "$1 + $1" (.notNumeric .boolean)) := by with_unfolding_all rfl
  have hslots : Session.startSlots (.select conflictQuery) [] = [none] := rfl
  have hslots' : Session.startSlots (.select conflictQuery) conflictPlan.parameters =
      [some .boolean] := rfl
  constructor
  · rw [Session.compile_eq, hslots, hrows]
    rfl
  · rw [Session.compile_eq, hslots', hagain]
    rfl

end QueryPlanner
