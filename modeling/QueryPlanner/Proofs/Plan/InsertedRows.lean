import QueryPlanner.Proofs.Plan.PlaceholderSlots
import QueryPlanner.Proofs.Plan.Targets
import QueryPlanner.Proofs.Plan.ValueRows

/-!
# Rows that are inserted

The values of a row may be listed after `VALUES` or selected without a source.  A placeholder that
is listed takes the type of its column; a placeholder that is selected takes nothing from it, for
what a query that is inserted finds out about placeholders is what it finds out by itself.  This is
the only difference: a row whose placeholders have types before columns could give them any is
inserted in both ways alike.

Main statement: `compile_insertedRow`.
-/

namespace QueryPlanner

namespace Session

variable {s : Session} {t : Table} {targets : List TargetColumn} {slots after : Slots}
  {items : List (Expr × Option String × Option String)}

/-! ## Plans of insertions -/

/-- A statement has a plan that writes the given columns and has these types of placeholders. -/
def Plans (s : Session) (statement : Statement) (hints : List (Option DataType)) (types : Slots)
    (targets : List TargetColumn) : Prop :=
  ∃ p, s.compile statement hints = .ok (.plan p) ∧ p.parameters = types ∧ p.root.targets = targets

variable {table : ObjectName} {columns : List String} {source : InsertSource}
  {hints : List (Option DataType)}

theorem runOn_compileInsert_eq_ok {root : Operator} :
    (s.compileInsert table columns source).runOn slots = .ok (root, after) ↔
      ∃ t targets op, s.bindTable table = .ok t ∧ t.insertTargets columns = .ok targets ∧
        (s.compileInsertSource t targets source).runOn slots = .ok (op, after) ∧
          root = .insert t.name targets op := by
  rw [compileInsert_eq]
  constructor
  · intro h
    rw [Typing.runOn_ofExcept_bind] at h
    obtain ⟨t, ht, h⟩ := bind_eq_ok.1 h
    rw [Typing.runOn_ofExcept_bind] at h
    obtain ⟨targets, htargets, h⟩ := bind_eq_ok.1 h
    obtain ⟨op, between, hop, h⟩ := Typing.runOn_bind_eq_ok.1 h
    cases h
    exact ⟨t, targets, op, ht, htargets, hop, rfl⟩
  · rintro ⟨t, targets, op, ht, htargets, hop, rfl⟩
    rw [Typing.runOn_ofExcept_bind, ht, ok_bind, Typing.runOn_ofExcept_bind, htargets, ok_bind,
      Typing.runOn_bind, hop, ok_bind]
    rfl

theorem runOn_compileRows_insert : (s.compileRows (.insert table columns source)).runOn slots =
    ((s.compileInsert table columns source).runOn slots).map fun root =>
      ((root.1, []), root.2) := Typing.runOn_map _

/-- What the plan of an insertion is made of. -/
theorem insertSource_of_compile {p : Plan}
    (h : s.compile (.insert table columns source) hints = .ok (.plan p)) :
    ∃ t targets op, s.bindTable table = .ok t ∧ t.insertTargets columns = .ok targets ∧
      (s.compileInsertSource t targets source).runOn
        (startSlots (.insert table columns source) hints) = .ok (op, p.parameters) ∧
        p.root = .insert t.name targets op := by
  obtain ⟨-, rows, hrows, rfl⟩ := compile_eq_plan h
  rw [runOn_compileRows_insert] at hrows
  obtain ⟨⟨root, after⟩, hroot, rfl⟩ := map_eq_ok.1 hrows
  exact runOn_compileInsert_eq_ok.1 hroot

theorem plans_insert_iff :
    s.Plans (.insert table columns source) hints after targets ↔
      (Statement.insert table columns source).parameterCount ≤ maxParameters ∧
        ∃ t, s.bindTable table = .ok t ∧ t.insertTargets columns = .ok targets ∧
          ∃ op, (s.compileInsertSource t targets source).runOn
            (startSlots (.insert table columns source) hints) = .ok (op, after) := by
  constructor
  · rintro ⟨p, hp, rfl, rfl⟩
    obtain ⟨hfixed, -⟩ := compile_eq_plan hp
    obtain ⟨t, targets, op, ht, htargets, hop, hroot⟩ := insertSource_of_compile hp
    rw [hroot]
    exact ⟨Statement.parameterCount_le_of_fixedOutcome? hfixed, t, ht, htargets, op, hop⟩
  · rintro ⟨hcount, t, ht, htargets, op, hop⟩
    have hroot := runOn_compileInsert_eq_ok.2 ⟨t, targets, op, ht, htargets, hop, rfl⟩
    unfold Plans
    have hrows : (s.compileRows (.insert table columns source)).runOn
        (startSlots (.insert table columns source) hints) =
          .ok ((.insert t.name targets op, []), after) := by
      rw [runOn_compileRows_insert, hroot]
      rfl
    exact ⟨_, compile_of_runOn rfl hcount hrows rfl, rfl, rfl⟩

/-- In both ways to insert a row, the placeholders are those of its values. -/
theorem parameterCount_insertSelected (table : ObjectName) (columns : List String)
    (items : List (Expr × Option String × Option String)) :
    (Statement.insert table columns (.select (.ofRow items))).parameterCount =
      (Statement.insert table columns (.values [items.map Prod.fst])).parameterCount := by
  have hselected : (Select.ofRow items).exprs = items.map Prod.fst := by
    simp [Select.exprs, Select.ofRow, List.flatMap_map, ← List.map_eq_flatMap]
  have hvalues : [items.map Prod.fst].flatten = items.map Prod.fst := List.append_nil _
  show QueryPlanner.parameterCount (Select.ofRow items).exprs =
    QueryPlanner.parameterCount [items.map Prod.fst].flatten
  rw [hselected, hvalues]

theorem plans_insertSelected_iff
    (hsettled : RowSettled (items.map Prod.fst)
      (startSlots (.insert table columns (.values [items.map Prod.fst])) hints)) :
    s.Plans (.insert table columns (.values [items.map Prod.fst])) hints after targets ↔
      s.Plans (.insert table columns (.select (.ofRow items))) hints after targets := by
  have hcounts := parameterCount_insertSelected table columns items
  have hslots : startSlots (.insert table columns (.select (.ofRow items))) hints =
      startSlots (.insert table columns (.values [items.map Prod.fst])) hints := by
    unfold startSlots
    rw [hcounts]
  rw [plans_insert_iff, plans_insert_iff, hcounts, hslots]
  refine and_congr_right fun _ => exists_congr fun t => and_congr_right fun _ =>
    and_congr_right fun _ => ?_
  rw [exists_insertSelected_iff]
  exact exists_insertValues_iff hsettled

/-- What the caller knows of the placeholders of a statement is known at the start. -/
theorem type?_startSlots {statement : Statement} (hcount : statement.parameterCount ≤ maxParameters)
    {i : UInt64} (hi : i ∈ statement.placeholders) :
    (startSlots statement hints).type? i = Slots.type? hints i := by
  have hlt : i.toNat < statement.parameterCount := toNat_lt_parameterCount hcount hi
  unfold startSlots Slots.type?
  rw [Slots.getElem?_ofHints hlt, Option.join_some]

/-- Values that are placeholders have types when it is their turn if the caller knows them. -/
theorem rowSettled_of_hints {row : List Expr}
    (hcount : (Statement.insert table columns (.values [row])).parameterCount ≤ maxParameters)
    (hknown : ∀ i, Expr.parameter i ∈ row → (Slots.type? hints i).isSome) :
    RowSettled row (startSlots (.insert table columns (.values [row])) hints) := by
  refine rowSettled_of_known fun i hi => ?_
  have hplaceholder : i ∈ (Statement.insert table columns (.values [row])).placeholders :=
    List.mem_flatMap.2 ⟨.parameter i, List.mem_append_left _ hi, List.mem_cons_self⟩
  rw [type?_startSlots hcount hplaceholder]
  exact hknown i hi

/-- A query that is inserted has its plan by itself, with the same types of placeholders. -/
theorem exists_compile_of_insertQuery {q : Select} {p : Plan}
    (h : s.compile (.insert table columns (.select q)) hints = .ok (.plan p)) :
    ∃ p' name, s.compile (.select q) hints = .ok (.plan p') ∧ p'.parameters = p.parameters ∧
      p.root = .insert name p.root.targets p'.root := by
  obtain ⟨hfixed, -⟩ := compile_eq_plan h
  obtain ⟨t, targets, op, -, -, hop, hroot⟩ := insertSource_of_compile h
  obtain ⟨results, hselect, -, -⟩ := runOn_insertQuery_eq_ok.1 hop
  have hcount : (Statement.select q).parameterCount ≤ maxParameters :=
    Statement.parameterCount_le_of_fixedOutcome? hfixed
  have hrows : (s.compileRows (.select q)).runOn (startSlots (.select q) hints) =
      .ok ((op, results), p.parameters) := hselect
  refine ⟨_, t.name, compile_of_runOn rfl hcount hrows rfl, rfl, ?_⟩
  rw [hroot]
  rfl

/-! ## Types of placeholders -/

theorem exists_type?_of_insertValues {rows : List (List Expr)} {p : Plan}
    (h : s.compile (.insert table columns (.values rows)) hints = .ok (.plan p)) :
    ∃ t, s.bindTable table = .ok t ∧ ∀ row ∈ rows, ∀ target i,
      (target, Expr.parameter i) ∈ p.root.targets.zip row →
        ∃ declared type, t.targetType target = some declared ∧
          p.parameters.type? i = some type ∧ type.comparable declared = true := by
  obtain ⟨hfixed, -⟩ := compile_eq_plan h
  obtain ⟨t, targets, op, ht, htargets, hop, hroot⟩ := insertSource_of_compile h
  obtain ⟨bound, after, hbound, hvalues⟩ := Typing.runOn_bind_eq_ok.1 hop
  cases hvalues
  refine ⟨t, ht, fun row hrow target i hvalue => ?_⟩
  rw [hroot] at hvalue
  -- The column is one of the table, so its type is known.
  have htarget := (Table.hasTargets_of_insertTargets htargets).columns target
    (List.of_mem_zip hvalue).1
  obtain ⟨c, hc, -⟩ := htarget
  have hdeclared : t.targetType target = some c.type := by
    rw [Table.targetType, hc]
    rfl
  have hplaceholder : i ∈ (Statement.insert table columns (.values rows)).placeholders :=
    List.mem_flatMap.2 ⟨.parameter i, List.mem_flatten.2 ⟨row, hrow, (List.of_mem_zip hvalue).2⟩,
      List.mem_cons_self⟩
  have hi := toNat_lt_parameterCount (Statement.parameterCount_le_of_fixedOutcome? hfixed)
    hplaceholder
  have hslots : i.toNat <
      (startSlots (.insert table columns (.values rows)) hints).length := by
    rw [Slots.length_ofHints]
    exact hi
  obtain ⟨type, htype, hfits⟩ := Table.exists_type?_of_valueRows hbound hrow hslots hvalue hdeclared
  exact ⟨c.type, type, hdeclared, htype, hfits⟩

/-- A row whose values are listed and the same row selected without a source are inserted alike,
into the same columns and with the same types of placeholders, if each value that is a placeholder
has a type when it is its turn: the caller knows it, or it is found in a value before.  For others
it makes a difference.  Listed values that are placeholders always have types that fit their
columns; a query that is inserted has the types of placeholders that it has by itself, whatever the
columns are. -/
theorem compile_insertedRow (s : Session) (table : ObjectName) (columns : List String)
    (hints : List (Option DataType)) :
    (∀ items, RowSettled (items.map Prod.fst)
        (startSlots (.insert table columns (.values [items.map Prod.fst])) hints) →
      ∀ types targets,
        s.Plans (.insert table columns (.values [items.map Prod.fst])) hints types targets ↔
          s.Plans (.insert table columns (.select (.ofRow items))) hints types targets) ∧
      (∀ rows p, s.compile (.insert table columns (.values rows)) hints = .ok (.plan p) →
        ∃ t, s.bindTable table = .ok t ∧ ∀ row ∈ rows, ∀ target i,
          (target, Expr.parameter i) ∈ p.root.targets.zip row →
            ∃ declared type, t.targetType target = some declared ∧
              p.parameters.type? i = some type ∧ type.comparable declared = true) ∧
      ∀ q p, s.compile (.insert table columns (.select q)) hints = .ok (.plan p) →
        ∃ p' name, s.compile (.select q) hints = .ok (.plan p') ∧ p'.parameters = p.parameters ∧
          p.root = .insert name p.root.targets p'.root :=
  ⟨fun _ hsettled _ _ => plans_insertSelected_iff hsettled,
    fun _ _ h => exists_type?_of_insertValues h, fun _ _ h => exists_compile_of_insertQuery h⟩

end Session

/-- The row of one placeholder. -/
def placeholderRow : List (Expr × Option String × Option String) := [(.parameter 0, none, none)]

/-- The plan of `INSERT INTO points (x) VALUES (?)`. -/
def listedPlan : Plan :=
  { statement := "INSERT INTO points"
    root := .insert ⟨"main", "points"⟩ [⟨0, "x"⟩] (.values [[.parameter 0]])
    results := []
    parameters := [some .bigint]
    offset := none
    limit := none }

/-- The plan of `INSERT INTO points (x) SELECT ?`. -/
def selectedPlan : Plan :=
  { listedPlan with
    root := .insert ⟨"main", "points"⟩ [⟨0, "x"⟩]
      (.project [⟨.parameter 0, "$1"⟩] (.values [[]]))
    parameters := [none] }

/-- A placeholder that is inserted takes the type of its column if it is listed as a value, and none
if it is selected; if the caller knows its type, both ways are alike. -/
theorem compile_insertedRow_pointSession :
    let listed := Statement.insert { name := "points" } ["x"] (.values [[.parameter 0]])
    let selected := Statement.insert { name := "points" } ["x"] (.select (.ofRow placeholderRow))
    (pointSession.compile listed [] = .ok (.plan listedPlan) ∧
      ∃ type, listedPlan.parameters.type? 0 = some type ∧ type.comparable .bigint = true) ∧
    (pointSession.compile selected [] = .ok (.plan selectedPlan) ∧
      ∃ p, pointSession.compile (.select (.ofRow placeholderRow)) [] = .ok (.plan p) ∧
        p.parameters = [none]) ∧
    pointSession.Plans listed [some .bigint] [some .bigint] [⟨0, "x"⟩] ∧
      pointSession.Plans selected [some .bigint] [some .bigint] [⟨0, "x"⟩] := by
  intro listed selected
  have hlistedRun (hint : Option DataType) (hhint : hint = none ∨ hint = some .bigint) :
      (pointSession.compileRows listed).runOn [hint] =
        .ok ((listedPlan.root, []), listedPlan.parameters) := by
    rcases hhint with rfl | rfl <;> with_unfolding_all rfl
  have hselectedRun : (pointSession.compileRows selected).runOn [none] =
      .ok ((selectedPlan.root, []), selectedPlan.parameters) := by with_unfolding_all rfl
  have hlisted : pointSession.compile listed [] = .ok (.plan listedPlan) := by
    exact Session.compile_of_runOn rfl (by decide) (hlistedRun none (.inl rfl)) rfl
  have hhinted : pointSession.Plans listed [some .bigint] [some .bigint] [⟨0, "x"⟩] := by
    have hrows := hlistedRun (some .bigint) (.inr rfl)
    exact ⟨listedPlan, Session.compile_of_runOn rfl (by decide) hrows rfl, rfl, rfl⟩
  have hselected : pointSession.compile selected [] = .ok (.plan selectedPlan) := by
    exact Session.compile_of_runOn rfl (by decide) hselectedRun rfl
  obtain ⟨-, hfits, hquery⟩ := pointSession.compile_insertedRow { name := "points" } ["x"] []
  obtain ⟨halike, -, -⟩ :=
    pointSession.compile_insertedRow { name := "points" } ["x"] [some .bigint]
  refine ⟨⟨hlisted, ?_⟩, ⟨hselected, ?_⟩, hhinted, ?_⟩
  · obtain ⟨t, ht, htypes⟩ := hfits _ _ hlisted
    obtain ⟨declared, type, hdeclared, htype, hcomparable⟩ :=
      htypes _ List.mem_cons_self ⟨0, "x"⟩ 0 List.mem_cons_self
    cases ht
    cases hdeclared
    exact ⟨type, htype, hcomparable⟩
  · obtain ⟨p, -, hp, hparameters, -⟩ := hquery _ _ hselected
    exact ⟨p, hp, hparameters⟩
  · refine (halike placeholderRow (Session.rowSettled_of_hints (by decide) ?_) _ _).1 hhinted
    intro i hi
    cases List.mem_singleton.1 hi
    rfl

end QueryPlanner
