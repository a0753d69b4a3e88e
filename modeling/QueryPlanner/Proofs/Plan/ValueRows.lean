import Mathlib.Data.List.Forall2
import QueryPlanner.Proofs.Plan.Placeholders
import QueryPlanner.Proofs.Plan.ViewReferences

/-!
# Rows of values

A row of values is inserted if its values have types that may be stored in the columns.  Values
that are listed are made to fit their columns one by one, each as soon as it has a type, and a
placeholder without a type takes that of its column.  Results of a query are compared with the
columns at the end, when all of them have their types.

Apart from placeholders without a type it does not matter when values are compared: to fit a column
fills no slot.  Both ways come to the same condition on the row, `RowFits`.

Main statements: `exists_insertValues_iff` and `exists_insertSelected_iff`.
-/

namespace QueryPlanner

/-- Values of a type may be stored in a column of another type, as far as both are known. -/
def Assignable (actual target : Option DataType) : Prop :=
  ∀ a ∈ actual, ∀ b ∈ target, a.comparable b = true

theorem assignable_some {a b : DataType} :
    Assignable (some a) (some b) ↔ a.comparable b = true := by
  constructor
  · exact fun h => h a rfl b rfl
  · rintro h _ ⟨⟩ _ ⟨⟩
    exact h

/-- The query of a row of values, each with an alias or the name that the parser gave it. -/
def Select.ofRow (items : List (Expr × Option String × Option String)) : Select :=
  { items := items.map fun (e, aliasName, defaultName) => .expr e aliasName defaultName }

/-! ## One value -/

theorem Scope.eq_parameter_of_bindExpr {scope : Scope} {e : Expr} {i : UInt64}
    (h : scope.bindExpr e = .ok (.parameter i)) : e = .parameter i := by
  cases e <;> simp [bindExpr, bind_eq_ok, pure, Except.pure] at h
  rw [h]

namespace BoundExpr

variable {e : BoundExpr} {actual target : Option DataType} {slots after : Slots}

/-- An expression that takes no type from its column only has to fit it. -/
theorem runOn_fit (h : ∀ i, e = .parameter i → actual ≠ none) :
    (e.fit target actual).runOn slots = .ok ((), after) ↔
      Assignable actual target ∧ after = slots := by
  cases actual with
  | none =>
      have hnothing : e.fit target none = pure () := by
        cases e with
        | parameter i => exact absurd rfl (h i rfl)
        | _ => rfl
      rw [hnothing, Typing.runOn_pure_eq_ok]
      exact and_congr_left fun _ => ⟨fun _ => nofun, fun _ => rfl⟩
  | some a =>
      cases target with
      | none => exact Typing.runOn_pure_eq_ok.trans (and_congr_left fun _ =>
          ⟨fun _ _ _ => nofun, fun _ => rfl⟩)
      | some b =>
          rw [assignable_some, fit]
          split
          next hcomparable =>
            rw [Typing.runOn_pure_eq_ok]
            exact and_congr_left fun _ => ⟨fun _ => hcomparable, fun _ => rfl⟩
          next hother => exact ⟨nofun, fun h => absurd h.1 hother⟩

theorem runOn_resolveFor (h : ∀ i, e = .parameter i → (slots.type? i).isSome) :
    (e.resolveFor target).runOn slots = .ok ((), after) ↔
      ∃ actual, e.resolve.runOn slots = .ok (actual, after) ∧ Assignable actual target := by
  rw [resolveFor_eq, Typing.runOn_bind_eq_ok]
  have hfit {actual : Option DataType} {between : Slots}
      (hresolve : e.resolve.runOn slots = .ok (actual, between)) :
      (e.fit target actual).runOn between = .ok ((), after) ↔
        Assignable actual target ∧ after = between := by
    -- A placeholder that is found to have no type has none in its slot.
    refine runOn_fit ?_
    rintro i rfl rfl
    rw [resolve] at hresolve
    have hnone : slots.type? i = none := (Prod.mk.inj (Except.ok.inj hresolve)).1
    have hsome := h i rfl
    rw [hnone] at hsome
    cases hsome
  constructor
  · rintro ⟨actual, between, hresolve, hrun⟩
    obtain ⟨hassignable, rfl⟩ := (hfit hresolve).1 hrun
    exact ⟨actual, hresolve, hassignable⟩
  · rintro ⟨actual, hresolve, hassignable⟩
    exact ⟨actual, after, hresolve, (hfit hresolve).2 ⟨hassignable, rfl⟩⟩

/-- A placeholder that is made to fit a column has a type that does. -/
theorem exists_type?_of_resolveFor {i : UInt64} {target : DataType}
    (h : ((parameter i).resolveFor (some target)).runOn slots = .ok ((), after))
    (hi : i.toNat < slots.length) :
    ∃ type, after.type? i = some type ∧ type.comparable target = true := by
  rw [resolveFor_eq] at h
  obtain ⟨actual, between, hactual, hfit⟩ := Typing.runOn_bind_eq_ok.1 h
  rw [resolve] at hactual
  cases hactual
  cases hslot : slots.type? i with
  | none =>
      -- The slot is filled with the type of the column.
      rw [hslot] at hfit
      cases hfit
      rw [Slots.type?_fill_self hi, hslot]
      exact ⟨target, rfl, target.comparable_refl⟩
  | some known =>
      rw [hslot, runOn_fit fun _ _ => Option.some_ne_none known] at hfit
      obtain ⟨hfits, rfl⟩ := hfit
      exact ⟨known, hslot, assignable_some.1 hfits⟩

end BoundExpr

/-! ## One row -/

theorem checkWidth_eq_ok_iff {targets values : Nat} :
    checkWidth targets values = .ok () ↔ targets = values := by
  unfold checkWidth
  split
  next h => exact ⟨fun _ => h, fun _ => rfl⟩
  next h => exact ⟨nofun, fun heq => absurd heq h⟩

/-- Values are found without columns to refer to, have their types one after the other, and may be
stored in columns of the given types. -/
def RowFits (types : List (Option DataType)) (row : List Expr) (slots after : Slots) : Prop :=
  ∃ bound actual, row.mapM (Scope.bindExpr []) = .ok bound ∧
    (bound.mapM BoundExpr.resolve).runOn slots = .ok (actual, after) ∧
      List.Forall₂ Assignable actual types

theorem RowFits.length_eq {types : List (Option DataType)} {row : List Expr} {slots after : Slots}
    (h : RowFits types row slots after) : types.length = row.length := by
  obtain ⟨bound, actual, hbound, hactual, hfits⟩ := h
  have hresolved := Typing.Gives.length_mapM (l := bound) (f := BoundExpr.resolve) fun e _ =>
    Typing.rules_gives.resolve (e := e) fun _ _ => trivial
  rw [← hfits.length_eq, (hresolved slots).of_eq_ok hactual, (getElem?_of_mapM hbound).1]

theorem rowFits_nil {types : List (Option DataType)} {slots after : Slots} :
    RowFits types [] slots after ↔ types = [] ∧ after = slots := by
  constructor
  · rintro ⟨bound, actual, hbound, hactual, hfits⟩
    cases hbound
    cases hactual
    exact ⟨List.forall₂_nil_left_iff.1 hfits, rfl⟩
  · rintro ⟨rfl, rfl⟩
    exact ⟨[], [], rfl, rfl, .nil⟩

theorem rowFits_cons {type : Option DataType} {types : List (Option DataType)} {e : Expr}
    {row : List Expr} {slots after : Slots} :
    RowFits (type :: types) (e :: row) slots after ↔
      ∃ bound actual between, Scope.bindExpr [] e = .ok bound ∧
        bound.resolve.runOn slots = .ok (actual, between) ∧ Assignable actual type ∧
          RowFits types row between after := by
  constructor
  · rintro ⟨bounds, actuals, hbounds, htypes, hfits⟩
    rw [List.mapM_cons] at hbounds
    obtain ⟨bound, hbound, hbounds⟩ := bind_eq_ok.1 hbounds
    obtain ⟨rest, hrest, hbounds⟩ := bind_eq_ok.1 hbounds
    cases hbounds
    obtain ⟨actual, between, actuals, hactual, hactuals, rfl⟩ := Typing.runOn_mapM_cons.1 htypes
    obtain ⟨hfit, hfits⟩ := List.forall₂_cons.1 hfits
    exact ⟨bound, actual, between, hbound, hactual, hfit, rest, actuals, hrest, hactuals, hfits⟩
  · rintro ⟨bound, actual, between, hbound, hactual, hfit, rest, actuals, hrest, hactuals, hfits⟩
    refine ⟨bound :: rest, actual :: actuals, ?_, ?_, .cons hfit hfits⟩
    · rw [List.mapM_cons, hbound, ok_bind, hrest]
      rfl
    · exact Typing.runOn_mapM_cons.2 ⟨actual, between, actuals, hactual, hactuals, rfl⟩

/-- Each value that is a placeholder has a type when it is its turn, after the values before it. -/
def RowSettled : List Expr → Slots → Prop
  | [], _ => True
  | e :: row, slots =>
      (∀ i, e = .parameter i → (slots.type? i).isSome) ∧
        ∀ bound actual between, Scope.bindExpr [] e = .ok bound →
          bound.resolve.runOn slots = .ok (actual, between) → RowSettled row between

/-- Placeholders with types at the start have types when it is their turn. -/
theorem rowSettled_of_known {row : List Expr} {slots : Slots}
    (h : ∀ i, Expr.parameter i ∈ row → (slots.type? i).isSome) : RowSettled row slots := by
  induction row generalizing slots with
  | nil => trivial
  | cons e row ih =>
      refine ⟨?_, fun bound actual between _ hactual => ih fun i hi => ?_⟩
      · rintro i rfl
        exact h i List.mem_cons_self
      · obtain ⟨type, htype⟩ := Option.isSome_iff_exists.1 (h i (List.mem_cons_of_mem e hi))
        have hkept := ((Typing.rules_keeps fun _ => True).resolve
          (fun _ _ => trivial)).knownIn hactual i type htype
        rw [hkept]
        rfl

namespace Table

/-- A value for a target; its expression sees no columns. -/
def value (t : Table) (place : TargetColumn × Expr) : Typing BoundExpr := do
  let bound ← .ofExcept (Scope.bindExpr [] place.2)
  bound.resolveFor (t.targetType place.1)
  return bound

theorem valueRow_eq (t : Table) (targets : List TargetColumn) (row : List Expr) :
    t.valueRow targets row = (do
      .ofExcept (checkWidth targets.length row.length)
      (targets.zip row).mapM t.value) := rfl

variable {t : Table} {slots after : Slots}

theorem runOn_value {target : TargetColumn} {e : Expr} {bound : BoundExpr} :
    (t.value (target, e)).runOn slots = .ok (bound, after) ↔
      Scope.bindExpr [] e = .ok bound ∧
        (bound.resolveFor (t.targetType target)).runOn slots = .ok ((), after) := by
  unfold value
  rw [Typing.runOn_ofExcept_bind, bind_eq_ok]
  simp only [Typing.runOn_bind_eq_ok, Typing.runOn_pure_eq_ok]
  constructor
  · rintro ⟨_, hbound, ⟨⟩, _, hrun, rfl, rfl⟩
    exact ⟨hbound, hrun⟩
  · rintro ⟨hbound, hrun⟩
    exact ⟨bound, hbound, (), after, hrun, rfl, rfl⟩

theorem runOn_valueRow_eq_ok {targets : List TargetColumn} {row : List Expr}
    {bound : List BoundExpr} :
    (t.valueRow targets row).runOn slots = .ok (bound, after) ↔
      targets.length = row.length ∧
        ((targets.zip row).mapM t.value).runOn slots = .ok (bound, after) := by
  rw [valueRow_eq, Typing.runOn_ofExcept_bind, bind_eq_ok]
  constructor
  · rintro ⟨_, hwidth, h⟩
    exact ⟨checkWidth_eq_ok_iff.1 hwidth, h⟩
  · rintro ⟨hwidth, h⟩
    exact ⟨(), checkWidth_eq_ok_iff.2 hwidth, h⟩

/-- Values that are made to fit their columns one by one fit them in the end, by induction on the
row: to fit the first value fills no slot, so the others find what its type has left. -/
theorem exists_values_iff {targets : List TargetColumn} {row : List Expr}
    (hwidth : targets.length = row.length) (hsettled : RowSettled row slots) :
    (∃ bound, ((targets.zip row).mapM t.value).runOn slots = .ok (bound, after)) ↔
      RowFits (targets.map t.targetType) row slots after := by
  induction row generalizing targets slots with
  | nil =>
      cases List.eq_nil_of_length_eq_zero hwidth
      rw [rowFits_nil, List.zip_nil_right, List.mapM_nil]
      simp only [Typing.runOn_pure_eq_ok]
      exact ⟨fun ⟨_, _, h⟩ => ⟨rfl, h⟩, fun ⟨_, h⟩ => ⟨[], rfl, h⟩⟩
  | cons e row ih =>
      cases targets with
      | nil => cases hwidth
      | cons target targets =>
          obtain ⟨htyped, hrest⟩ := hsettled
          have hfirst {bound : BoundExpr} (hbound : Scope.bindExpr [] e = .ok bound) :
              ∀ i, bound = .parameter i → (slots.type? i).isSome := by
            rintro i rfl
            exact htyped i (Scope.eq_parameter_of_bindExpr hbound)
          rw [List.map_cons, rowFits_cons, List.zip_cons_cons]
          simp only [Typing.runOn_mapM_cons]
          constructor
          · rintro ⟨_, bound, between, bounds, hvalue, hvalues, rfl⟩
            obtain ⟨hbound, hrun⟩ := runOn_value.1 hvalue
            obtain ⟨actual, hactual, hfit⟩ := (BoundExpr.runOn_resolveFor (hfirst hbound)).1 hrun
            have hfits := (ih (Nat.succ.inj hwidth) (hrest _ _ _ hbound hactual)).1
              ⟨bounds, hvalues⟩
            exact ⟨bound, actual, between, hbound, hactual, hfit, hfits⟩
          · rintro ⟨bound, actual, between, hbound, hactual, hfit, hfits⟩
            obtain ⟨bounds, hvalues⟩ :=
              (ih (Nat.succ.inj hwidth) (hrest _ _ _ hbound hactual)).2 hfits
            have hrun := (BoundExpr.runOn_resolveFor (hfirst hbound)).2 ⟨actual, hactual, hfit⟩
            exact ⟨_, bound, between, bounds, runOn_value.2 ⟨hbound, hrun⟩, hvalues, rfl⟩

theorem keeps_value (place : TargetColumn × Expr) :
    Typing.Keeps (fun _ => True) BoundExpr (t.value place) := by
  have halike : Typing.Alike (· = ·) (t.value place) (t.value place) :=
    .ofExcept_bind fun bound _ => (bound.alike_resolveFor _).bind_any fun _ _ => .pure rfl
  exact halike.keeps

/-- The placeholders among the values of rows have types that fit the columns. -/
theorem exists_type?_of_valueRows {targets : List TargetColumn} {rows : List (List Expr)}
    {bound : List (List BoundExpr)}
    (h : (rows.mapM (t.valueRow targets)).runOn slots = .ok (bound, after))
    {row : List Expr} (hrow : row ∈ rows) {target : TargetColumn} {i : UInt64}
    (hi : i.toNat < slots.length) (hvalue : (target, Expr.parameter i) ∈ targets.zip row)
    {declared : DataType} (hdeclared : t.targetType target = some declared) :
    ∃ type, after.type? i = some type ∧ type.comparable declared = true := by
  have hkeeps (row : List Expr) : Typing.Keeps (fun _ => True) _ (t.valueRow targets row) :=
    (t.alike_valueRow targets row).keeps
  -- What is known after the value is known after its row, and then after all rows.
  obtain ⟨bound, before, between, hlength, hrun, hknown⟩ :=
    Typing.exists_of_runOn_mapM (fun row _ => hkeeps row) h hrow
  obtain ⟨-, hrun⟩ := runOn_valueRow_eq_ok.1 hrun
  obtain ⟨value, start, between', hlength', hrun, hknown'⟩ :=
    Typing.exists_of_runOn_mapM (fun place _ => keeps_value place) hrun hvalue
  obtain ⟨hbound, hrun⟩ := runOn_value.1 hrun
  cases hbound
  rw [hdeclared] at hrun
  obtain ⟨type, htype, hfits⟩ := BoundExpr.exists_type?_of_resolveFor hrun (by omega)
  exact ⟨type, hknown i type (hknown' i type htype), hfits⟩

end Table

/-! ## Selected rows -/

/-- The results of a row of values, once these have been found. -/
def BoundSelect.ofRow (items : List (Expr × Option String × Option String))
    (bound : List BoundExpr) : BoundSelect :=
  { sources := []
    results := List.zipWith
      (fun (e, aliasName, defaultName) b => ⟨b, Scope.resultName aliasName defaultName e b⟩)
      items bound
    predicate := none
    order := []
    offset := none
    limit := none }

variable {items : List (Expr × Option String × Option String)}

theorem Scope.bindItems_ofRow (scope : Scope)
    (items : List (Expr × Option String × Option String)) :
    ((Select.ofRow items).items.mapM scope.bindItem).map List.flatten =
      ((items.map Prod.fst).mapM scope.bindExpr).map fun bound =>
        (BoundSelect.ofRow items bound).results := by
  unfold Select.ofRow BoundSelect.ofRow
  induction items with
  | nil => rfl
  | cons item items ih =>
      obtain ⟨e, aliasName, defaultName⟩ := item
      dsimp only at ih ⊢
      rw [List.map_cons, List.map_cons, List.mapM_cons, List.mapM_cons, bindItem]
      cases scope.bindExpr e with
      | error e => rfl
      | ok b =>
          cases hbound : (items.map Prod.fst).mapM scope.bindExpr with
          | error e =>
              rw [hbound] at ih
              rw [map_eq_error.1 ih]
              rfl
          | ok bound =>
              rw [hbound] at ih
              obtain ⟨lists, hlists, hresults⟩ := map_eq_ok.1 ih
              rw [hlists]
              exact congrArg (fun results => Except.ok (_ :: results)) hresults

theorem BoundSelect.resolve_ofRow (bound : List BoundExpr) :
    (ofRow items bound).resolve = (ofRow items bound).resolveResults := by
  rw [resolve_eq]
  exact bind_pure (ofRow items bound).resolveResults

theorem BoundSelect.map_results_ofRow {bound : List BoundExpr}
    (h : bound.length = items.length) : (ofRow items bound).results.map (·.expr) = bound := by
  unfold ofRow
  dsimp only
  rw [List.map_zipWith, ← List.map_uncurry_zip_eq_zipWith]
  exact List.map_snd_zip (Nat.le_of_eq h)

theorem Session.bindSelect_ofRow (s : Session) :
    s.bindSelect (.ofRow items) =
      ((items.map Prod.fst).mapM (Scope.bindExpr [])).map (BoundSelect.ofRow items) := by
  have hitems := Scope.bindItems_ofRow [] items
  show Select.bindIn [] (.ofRow items) = _
  unfold Select.bindIn
  cases hbound : (items.map Prod.fst).mapM (Scope.bindExpr []) with
  | error e =>
      rw [hbound] at hitems
      rw [map_eq_error.1 hitems]
      rfl
  | ok bound =>
      rw [hbound] at hitems
      obtain ⟨lists, hlists, hresults⟩ := map_eq_ok.1 hitems
      rw [hlists]
      show Except.ok _ = Except.ok _
      rw [hresults]
      rfl

/-- The types of results are those of their expressions. -/
theorem BoundSelect.exists_resolveResults_iff {q : BoundSelect} {types : List (Option DataType)}
    {slots after : Slots} :
    (∃ results, q.resolveResults.runOn slots = .ok (results, after) ∧
        results.map (·.type) = types) ↔
      ((q.results.map (·.expr)).mapM BoundExpr.resolve).runOn slots = .ok (types, after) := by
  unfold resolveResults
  generalize q.results = items
  induction items generalizing slots types with
  | nil =>
      rw [List.mapM_nil, List.map_nil, List.mapM_nil]
      simp only [Typing.runOn_pure_eq_ok]
      exact ⟨fun ⟨_, ⟨hresults, hafter⟩, htypes⟩ => ⟨by rw [← htypes, hresults]; rfl, hafter⟩,
        fun ⟨htypes, hafter⟩ => ⟨[], ⟨rfl, hafter⟩, htypes.symm⟩⟩
  | cons item items ih =>
      rw [List.map_cons]
      simp only [Typing.runOn_mapM_cons, Typing.runOn_bind_eq_ok, Typing.runOn_pure_eq_ok]
      constructor
      · rintro ⟨_, ⟨_, between, results, ⟨type, _, htype, rfl, rfl⟩, hresults, rfl⟩, rfl⟩
        exact ⟨type, between, _, htype, ih.1 ⟨results, hresults, rfl⟩, rfl⟩
      · rintro ⟨type, between, types, htype, htypes, rfl⟩
        obtain ⟨results, hresults, rfl⟩ := ih.2 htypes
        exact ⟨_, ⟨⟨item.name, type⟩, between, results, ⟨type, between, htype, rfl, rfl⟩, hresults,
          rfl⟩, rfl⟩

/-- Requires a result to fit a target. -/
def TargetColumn.checkResult (target : TargetColumn) (actual expected : Option DataType) :
    Except PlanError Unit :=
  match actual, expected with
  | some actual, some expected =>
      if actual.comparable expected then .ok ()
      else .error (.typeMismatch target.name (.notAssignable actual expected))
  | _, _ => .ok ()

theorem TargetColumn.checkResult_eq_ok_iff (target : TargetColumn)
    {actual expected : Option DataType} :
    target.checkResult actual expected = .ok () ↔ Assignable actual expected := by
  cases actual with
  | none => exact ⟨fun _ => nofun, fun _ => rfl⟩
  | some a =>
      cases expected with
      | none => exact ⟨fun _ _ _ => nofun, fun _ => rfl⟩
      | some b =>
          rw [checkResult, assignable_some]
          split
          next hcomparable => exact ⟨fun _ => hcomparable, fun _ => rfl⟩
          next hother => exact ⟨nofun, fun h => absurd h hother⟩

namespace Table

variable {t : Table} {targets : List TargetColumn} {results : List ResultColumn}

theorem checkResults_eq_ok_iff (h : targets.length = results.length) :
    t.checkResults targets results = .ok () ↔
      List.Forall₂ Assignable (results.map (·.type)) (targets.map t.targetType) := by
  induction targets generalizing results with
  | nil =>
      cases List.eq_nil_of_length_eq_zero h.symm
      exact ⟨fun _ => .nil, fun _ => rfl⟩
  | cons target targets ih =>
      cases results with
      | nil => cases h
      | cons result results =>
          rw [List.map_cons, List.map_cons, List.forall₂_cons, ← ih (Nat.succ.inj h),
            ← target.checkResult_eq_ok_iff]
          show (target.checkResult result.type (t.targetType target) >>= fun _ =>
            t.checkResults targets results) = .ok () ↔ _
          rw [bind_eq_ok]
          exact ⟨fun ⟨_, hfirst, hrest⟩ => ⟨hfirst, hrest⟩, fun ⟨hfirst, hrest⟩ =>
            ⟨(), hfirst, hrest⟩⟩

end Table

namespace Session

variable {s : Session} {t : Table} {targets : List TargetColumn} {slots after : Slots}

theorem runOn_compileSelect_eq_ok {q : Select} {op : Operator} {results : List ResultColumn} :
    (s.compileSelect q).runOn slots = .ok ((op, results), after) ↔
      ∃ b, s.bindSelect q = .ok b ∧ b.resolve.runOn slots = .ok (results, after) ∧
        b.operator = .ok op := by
  constructor
  · intro h
    unfold compileSelect at h
    rw [Typing.runOn_ofExcept_bind] at h
    obtain ⟨b, hb, h⟩ := bind_eq_ok.1 h
    obtain ⟨results, between, hresults, h⟩ := Typing.runOn_bind_eq_ok.1 h
    rw [Typing.runOn_ofExcept_bind] at h
    obtain ⟨op, hop, h⟩ := bind_eq_ok.1 h
    cases h
    exact ⟨b, hb, hresults, hop⟩
  · rintro ⟨b, hb, hresults, hop⟩
    exact runOn_compileSelect hb hresults hop

/-- A query is inserted if its results are as many as the columns and fit them. -/
theorem runOn_insertQuery_eq_ok {q : Select} {op : Operator} :
    (s.compileInsertSource t targets (.select q)).runOn slots = .ok (op, after) ↔
      ∃ results, (s.compileSelect q).runOn slots = .ok ((op, results), after) ∧
        targets.length = results.length ∧ t.checkResults targets results = .ok () := by
  unfold compileInsertSource
  rw [Typing.runOn_bind_eq_ok]
  constructor
  · rintro ⟨⟨root, results⟩, between, hselect, h⟩
    dsimp only at h
    rw [Typing.runOn_ofExcept_bind] at h
    obtain ⟨_, hwidth, h⟩ := bind_eq_ok.1 h
    rw [Typing.runOn_ofExcept_bind] at h
    obtain ⟨_, hcheck, h⟩ := bind_eq_ok.1 h
    cases h
    exact ⟨results, hselect, checkWidth_eq_ok_iff.1 hwidth, hcheck⟩
  · rintro ⟨results, hselect, hwidth, hcheck⟩
    refine ⟨(op, results), after, hselect, ?_⟩
    dsimp only
    rw [Typing.runOn_ofExcept_bind, checkWidth_eq_ok_iff.2 hwidth, ok_bind,
      Typing.runOn_ofExcept_bind, hcheck, ok_bind]
    rfl

theorem exists_insertSelected_iff :
    (∃ op, (s.compileInsertSource t targets (.select (.ofRow items))).runOn slots =
        .ok (op, after)) ↔
      RowFits (targets.map t.targetType) (items.map Prod.fst) slots after := by
  simp only [runOn_insertQuery_eq_ok, runOn_compileSelect_eq_ok, bindSelect_ofRow, map_eq_ok]
  have hlength {bound : List BoundExpr}
      (hbound : (items.map Prod.fst).mapM (Scope.bindExpr []) = .ok bound) :
      bound.length = items.length := by
    rw [(getElem?_of_mapM hbound).1, List.length_map]
  constructor
  · rintro ⟨op, results, ⟨_, ⟨bound, hbound, rfl⟩, hresults, -⟩, hwidth, hcheck⟩
    rw [BoundSelect.resolve_ofRow] at hresults
    have hactual := BoundSelect.exists_resolveResults_iff.1 ⟨results, hresults, rfl⟩
    rw [BoundSelect.map_results_ofRow (hlength hbound)] at hactual
    exact ⟨bound, _, hbound, hactual, (Table.checkResults_eq_ok_iff hwidth).1 hcheck⟩
  · rintro ⟨bound, actual, hbound, hactual, hfits⟩
    rw [← BoundSelect.map_results_ofRow (hlength hbound)] at hactual
    obtain ⟨results, hresults, rfl⟩ := BoundSelect.exists_resolveResults_iff.2 hactual
    rw [← BoundSelect.resolve_ofRow] at hresults
    have hwidth : targets.length = results.length := by
      have heq := hfits.length_eq
      rw [List.length_map, List.length_map] at heq
      exact heq.symm
    exact ⟨_, results, ⟨_, ⟨bound, hbound, rfl⟩, hresults, rfl⟩, hwidth,
      (Table.checkResults_eq_ok_iff hwidth).2 hfits⟩

theorem exists_insertValues_iff {row : List Expr} (hsettled : RowSettled row slots) :
    (∃ op, (s.compileInsertSource t targets (.values [row])).runOn slots = .ok (op, after)) ↔
      RowFits (targets.map t.targetType) row slots after := by
  have hvalues (hwidth : targets.length = row.length) :
      (∃ bound, ((targets.zip row).mapM t.value).runOn slots = .ok (bound, after)) ↔
        RowFits (targets.map t.targetType) row slots after :=
    Table.exists_values_iff hwidth hsettled
  unfold compileInsertSource
  constructor
  · rintro ⟨op, h⟩
    obtain ⟨rows, between, hrows, hop⟩ := Typing.runOn_bind_eq_ok.1 h
    obtain ⟨bound, _, _, hbound, hnone, -⟩ := Typing.runOn_mapM_cons.1 hrows
    cases hnone
    cases hop
    obtain ⟨hwidth, hbound⟩ := Table.runOn_valueRow_eq_ok.1 hbound
    exact (hvalues hwidth).1 ⟨bound, hbound⟩
  · intro h
    have hwidth := h.length_eq
    rw [List.length_map] at hwidth
    obtain ⟨bound, hbound⟩ := (hvalues hwidth).2 h
    have hrow := Table.runOn_valueRow_eq_ok.2 ⟨hwidth, hbound⟩
    have hrows : ([row].mapM (t.valueRow targets)).runOn slots = .ok ([bound], after) :=
      Typing.runOn_mapM_cons.2 ⟨bound, after, [], hrow, rfl, rfl⟩
    exact ⟨.values [bound], Typing.runOn_bind_eq_ok.2 ⟨[bound], after, hrows, rfl⟩⟩

end Session

end QueryPlanner
