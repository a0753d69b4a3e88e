import Mathlib.Data.List.Find
import Mathlib.Data.List.Forall2
import QueryPlanner.Proofs.Plan.RowSource
import QueryPlanner.Proofs.Plan.Scoping

/-!
# The columns that a change writes

Insertions and updates name the columns they write, in any case of ASCII letters and in any order.
Each name gives the column that answers to it, so two names give one column exactly when they differ
at most in the case of letters (`position_eq_iff`).

An insertion that names a column twice is refused.  An update is not: it writes a column as often as
its assignments name it, and which value stays is left to whoever carries out the plan.

Main statement: `compile_targets`.
-/

namespace QueryPlanner

/-- The columns that an operator writes, in the order in which it has values for them. -/
def Operator.targets : Operator → List TargetColumn
  | .insert _ targets _ => targets
  | .update _ assignments _ => assignments.map (·.1)
  | _ => []

namespace Table

variable {t : Table}

/-! ## Names and columns -/

theorem column?_congr {m n : String} (h : Text.sameLetters m n = true) :
    t.column? m = t.column? n := by
  have hsame (c : Column) : Text.sameLetters c.name m = Text.sameLetters c.name n := by
    unfold Text.sameLetters
    rw [Text.sameLetters_iff.1 h]
  unfold column?
  simp only [hsame]

/-- The target that a name gives is the column that answers to it. -/
theorem target_eq_ok_iff {name : String} {target : TargetColumn} :
    t.target name = .ok target ↔
      ∃ c, t.column? name = some (target.position, c) ∧ target.name = c.name := by
  unfold Table.target
  obtain ⟨position, declared⟩ := target
  cases t.column? name with
  | none => simp
  | some found =>
      obtain ⟨foundPosition, c⟩ := found
      simp [eq_comm, and_comm]

theorem sameLetters_of_target {name : String} {target : TargetColumn}
    (h : t.target name = .ok target) : Text.sameLetters target.name name = true := by
  obtain ⟨c, hc, hname⟩ := target_eq_ok_iff.1 h
  rw [hname]
  exact sameLetters_of_column? hc

/-- Two names give one column exactly when they differ at most in the case of letters. -/
theorem position_eq_iff {m n : String} {a b : TargetColumn} (ha : t.target m = .ok a)
    (hb : t.target n = .ok b) : a.position = b.position ↔ Text.sameLetters m n = true := by
  obtain ⟨c, hc, hcname⟩ := target_eq_ok_iff.1 ha
  obtain ⟨d, hd, hdname⟩ := target_eq_ok_iff.1 hb
  constructor
  · -- Both names answer to the column at that position.
    intro h
    have hat := getElem?_of_column? hc
    rw [h, getElem?_of_column? hd] at hat
    cases hat
    exact Text.sameLetters_trans (Text.sameLetters_symm (sameLetters_of_column? hc))
      (sameLetters_of_column? hd)
  · intro h
    rw [column?_congr h, hd] at hc
    exact (congrArg Prod.fst (Option.some.inj hc)).symm

variable {names : List String} {targets : List TargetColumn}

theorem forall_position_ne_iff
    (h : List.Forall₂ (fun name target => t.target name = .ok target) names targets) {m : String}
    {a : TargetColumn} (ha : t.target m = .ok a) :
    (∀ b ∈ targets, a.position ≠ b.position) ↔ ∀ n ∈ names, Text.sameLetters m n = false := by
  induction h with
  | nil => simp
  | cons hb _ ih =>
      rw [List.forall_mem_cons, List.forall_mem_cons, ih, Ne, position_eq_iff ha hb,
        Bool.not_eq_true]

/-- No column is named twice exactly when no name is repeated in any case of letters. -/
theorem pairwise_position_ne_iff
    (h : List.Forall₂ (fun name target => t.target name = .ok target) names targets) :
    (targets.Pairwise fun a b => a.position ≠ b.position) ↔
      names.Pairwise fun m n => Text.sameLetters m n = false := by
  induction h with
  | nil => simp
  | cons hb hrest ih =>
      rw [List.pairwise_cons, List.pairwise_cons, forall_position_ne_iff hrest hb, ih]

theorem forall_hasTarget
    (h : List.Forall₂ (fun name target => t.target name = .ok target) names targets) :
    ∀ target ∈ targets, t.HasTarget target := by
  induction h with
  | nil => nofun
  | cons hb _ ih => exact List.forall_mem_cons.2 ⟨hasTarget_of_target hb, ih⟩

/-! ## Lists of names -/

/-- The targets that a list of names adds to earlier ones. -/
theorem exists_of_targets {before : List TargetColumn} (h : t.targets before names = .ok targets) :
    ∃ new, targets = before ++ new ∧
      List.Forall₂ (fun name target => t.target name = .ok target) names new := by
  induction names generalizing before with
  | nil =>
      cases h
      exact ⟨[], (List.append_nil _).symm, .nil⟩
  | cons name rest ih =>
      obtain ⟨target, htarget, h⟩ := bind_eq_ok.1 h
      dsimp only at h
      split at h
      next => cases h
      next =>
        obtain ⟨new, rfl, hnew⟩ := ih h
        exact ⟨target :: new, List.append_assoc .., .cons htarget hnew⟩

theorem insertTargets_of_ne_nil {columns : List String} (hcolumns : columns ≠ [])
    (h : t.insertTargets columns = .ok targets) :
    List.Forall₂ (fun name target => t.target name = .ok target) columns targets := by
  unfold insertTargets at h
  rw [if_neg (by simpa using hcolumns)] at h
  obtain ⟨new, rfl, hnew⟩ := exists_of_targets h
  exact hnew

end Table

namespace Session

variable {s : Session} {table : ObjectName} {hints : List (Option DataType)} {p : Plan}

/-! ## Plans -/

theorem exists_of_compile_insert {columns : List String} {source : InsertSource}
    (h : s.compile (.insert table columns source) hints = .ok (.plan p)) :
    ∃ t, s.bindTable table = .ok t ∧ t.insertTargets columns = .ok p.root.targets := by
  obtain ⟨-, rows, hrows, rfl⟩ := compile_eq_plan h
  have hcompiles := (s.gives_compileRows _ _).of_eq_ok hrows
  obtain ⟨⟨op, results⟩, after⟩ := rows
  cases hcompiles with
  | insert t targets op binds writes inserts => exact ⟨t, binds, writes⟩

theorem gives_targets_compileUpdate (s : Session) (table : ObjectName)
    (assignments : List Assignment) (predicate : Option Expr) :
    Typing.Gives (fun op => ∃ t, s.bindTable table = .ok t ∧ List.Forall₂
        (fun (a : Assignment) target => t.target a.column = .ok target) assignments op.targets)
      (s.compileUpdate table assignments predicate) := by
  refine (Typing.Gives.ofExcept (s.gives_bindTable table).and_eq).bind fun t ht => ?_
  refine (Typing.Gives.mapM_forall₂ fun a _ => gives_compileAssignment t _ a).bind
    fun bound hbound => ?_
  refine (t.gives_filteredAccess _ predicate).bind fun op _ => .pure ⟨t, ht.1, ?_⟩
  exact List.forall₂_map_right_iff.2 (hbound.imp fun _ _ h => h.1)

theorem exists_of_compile_update {assignments : List Assignment} {predicate : Option Expr}
    (h : s.compile (.update table assignments predicate) hints = .ok (.plan p)) :
    ∃ t, s.bindTable table = .ok t ∧ List.Forall₂
      (fun name target => t.target name = .ok target) (assignments.map (·.column))
      p.root.targets := by
  obtain ⟨-, rows, hrows, rfl⟩ := compile_eq_plan h
  -- The rows of an update are its operator and no results.
  have hgives := (s.gives_targets_compileUpdate table assignments predicate).bind
    fun op hop => Typing.Gives.pure (a := (op, ([] : List ResultColumn)))
      (P := fun rows => ∃ t, s.bindTable table = .ok t ∧ List.Forall₂
        (fun (a : Assignment) target => t.target a.column = .ok target) assignments
          rows.1.targets) hop
  obtain ⟨t, ht, htargets⟩ := (hgives _).of_eq_ok hrows
  exact ⟨t, ht, List.forall₂_map_left_iff.2 htargets⟩

/-- The columns that the plan of a change writes are columns of its table, those that it names and
in that order.  An insertion writes each of them once; without a list of names it writes all columns
in declared order.  An update writes each of them once exactly when no two of its assignments name a
column in the same letters. -/
theorem compile_targets (s : Session) (table : ObjectName) (hints : List (Option DataType))
    (p : Plan) :
    (∀ columns source, s.compile (.insert table columns source) hints = .ok (.plan p) →
      ∃ t, s.bindTable table = .ok t ∧ t.HasTargets p.root.targets ∧
        (columns = [] → p.root.targets = t.allTargets) ∧
        (columns ≠ [] → List.Forall₂ (fun name target => Text.sameLetters target.name name = true)
          columns p.root.targets)) ∧
    ∀ assignments predicate,
      s.compile (.update table assignments predicate) hints = .ok (.plan p) →
        ∃ t, s.bindTable table = .ok t ∧ (∀ target ∈ p.root.targets, t.HasTarget target) ∧
          List.Forall₂ (fun name target => Text.sameLetters target.name name = true)
            (assignments.map (·.column)) p.root.targets ∧
          (t.HasTargets p.root.targets ↔
            (assignments.map (·.column)).Pairwise fun m n => Text.sameLetters m n = false) := by
  constructor
  · intro columns source h
    obtain ⟨t, ht, htargets⟩ := exists_of_compile_insert h
    refine ⟨t, ht, Table.hasTargets_of_insertTargets htargets, ?_, fun hcolumns => ?_⟩
    · rintro rfl
      exact (Except.ok.inj htargets).symm
    · exact (Table.insertTargets_of_ne_nil hcolumns htargets).imp fun _ _ =>
        Table.sameLetters_of_target
  · intro assignments predicate h
    obtain ⟨t, ht, htargets⟩ := exists_of_compile_update h
    have hcolumns := Table.forall_hasTarget htargets
    refine ⟨t, ht, hcolumns, htargets.imp fun _ _ => Table.sameLetters_of_target, ?_⟩
    rw [← Table.pairwise_position_ne_iff htargets]
    exact ⟨fun h => h.distinct, fun h => ⟨hcolumns, h⟩⟩

end Session

/-- The assignments `x = 1, X = 2`. -/
def doubleAssignment : List Assignment :=
  [⟨"x", .literal (.integer 1)⟩, ⟨"X", .literal (.integer 2)⟩]

/-- The plan of `UPDATE points SET x = 1, X = 2`. -/
def doublePlan : Plan :=
  { statement := "UPDATE points"
    root := .update ⟨"main", "points"⟩
      [(⟨0, "x"⟩, .literal (.integer 1)), (⟨0, "x"⟩, .literal (.integer 2))]
      (.tableScan ⟨"main", "points"⟩)
    results := []
    parameters := []
    offset := none
    limit := none }

/-- An update that names a column in two cases of letters writes it twice. -/
theorem compile_targets_doubleAssignment :
    pointSession.compile (.update { name := "points" } doubleAssignment none) [] =
        .ok (.plan doublePlan) ∧
      ∃ t, pointSession.bindTable { name := "points" } = .ok t ∧
        (∀ target ∈ doublePlan.root.targets, t.HasTarget target) ∧
        ¬t.HasTargets doublePlan.root.targets := by
  have hrows : (pointSession.compileRows (.update { name := "points" } doubleAssignment none)).runOn
      [] = .ok ((doublePlan.root, doublePlan.results), doublePlan.parameters) := by with_unfolding_all rfl
  have hplan : pointSession.compile (.update { name := "points" } doubleAssignment none) [] =
      .ok (.plan doublePlan) := Session.compile_of_runOn rfl (by decide) hrows rfl
  obtain ⟨t, ht, hcolumns, -, hdistinct⟩ :=
    (pointSession.compile_targets { name := "points" } [] doublePlan).2 doubleAssignment none hplan
  refine ⟨hplan, t, ht, hcolumns, fun hwrites => ?_⟩
  have hnames : ¬(doubleAssignment.map (·.column)).Pairwise fun m n =>
      Text.sameLetters m n = false := by decide
  exact hnames (hdistinct.1 hwrites)

end QueryPlanner
