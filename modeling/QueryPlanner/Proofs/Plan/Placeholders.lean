import QueryPlanner.Proofs.Plan.Reading
import QueryPlanner.Proofs.Typing.OtherSlots
import QueryPlanner.Proofs.Typing.Places

/-!
# Placeholders of statements

Compiling a statement types the expressions of its places in turn (`types_compileRows`), so what
typing does holds of statements as well.  Where each placeholder that gets a type is found without
one a single time, a statement can be compiled again with the types that were found
(`repeats_compileRows`).  With more known of its placeholders, a statement has the same operators,
and results of wider types, or there is a type mismatch (`alike_compileRows`).
-/

namespace QueryPlanner

/-! ## The places of a statement -/

/-- The expression of an entry of a select list. -/
def SelectItem.exprs : SelectItem → List Expr
  | .expr e _ _ => [e]
  | _ => []

theorem Select.exprs_eq (q : Select) :
    q.exprs = q.items.flatMap SelectItem.exprs ++ q.predicate.toList ++ q.order.map (·.expr) := rfl

/-- The place of a predicate. -/
def Scope.predicatePlaces (scope : Scope) : Option Expr → Except PlanError (List Place)
  | none => return []
  | some e => return [⟨← scope.bindExpr e, some .boolean⟩]

namespace Table

/-- The places of a row of values. -/
def rowPlaces (t : Table) (targets : List TargetColumn) (row : List Expr) :
    Except PlanError (List Place) :=
  Place.inTurn (targets.zip row) fun (target, e) =>
    return [⟨← Scope.bindExpr [] e, t.targetType target⟩]

/-- The place of an assigned value. -/
def assignmentPlaces (t : Table) (scope : Scope) (a : Assignment) :
    Except PlanError (List Place) := do
  let target ← t.target a.column
  return [⟨← scope.bindExpr a.value, t.targetType target⟩]

end Table

namespace Session

/-- The places of the rows that an insertion adds. -/
def insertPlaces (s : Session) (t : Table) (targets : List TargetColumn) :
    InsertSource → Except PlanError (List Place)
  | .values rows => Place.inTurn rows (t.rowPlaces targets)
  | .select q => return (← s.bindSelect q).places

/-- The places of a statement, in the order in which their expressions get types. -/
def places (s : Session) : Statement → Except PlanError (List Place)
  | .select q => return (← s.bindSelect q).places
  | .insert table columns source => do
      let t ← s.bindTable table
      let targets ← t.insertTargets columns
      s.insertPlaces t targets source
  | .update table assignments predicate => do
      let t ← s.bindTable table
      let values ← Place.inTurn assignments (t.assignmentPlaces [.ofTable t none])
      return values ++ (← Scope.predicatePlaces [.ofTable t none] predicate)
  | .delete table predicate => do
      let t ← s.bindTable table
      Scope.predicatePlaces [.ofTable t none] predicate
  | _ => return []

/-- The placeholders that typing a statement finds without a type, from the given slots on, each as
often as it does. -/
def openLooks (s : Session) (statement : Statement) (slots : Slots) : List UInt64 :=
  match s.places statement with
  | .ok places => Place.openLooks places slots
  | .error _ => []

end Session

open Typing

namespace Table

theorem types_filteredAccess (t : Table) (scope : Scope) (predicate : Option Expr) :
    Types (scope.predicatePlaces predicate) (t.filteredAccess scope predicate) := by
  cases predicate with
  | none => exact .ofExcept (t.access 0 [])
  | some e =>
      refine .ofExcept_bind fun predicate => ?_
      exact predicate.types_resolvePredicate.bind_nil fun _ => .ofExcept_then fun op => .pure _

theorem types_valueRow (t : Table) (targets : List TargetColumn) (row : List Expr) :
    Types (t.rowPlaces targets row) (t.valueRow targets row) := by
  refine .ofExcept_then fun _ => .mapM fun (target, e) _ => .ofExcept_bind fun bound => ?_
  exact (bound.types_resolveFor _).bind_nil fun _ => .pure bound

theorem types_compileAssignment (t : Table) (scope : Scope) (a : Assignment) :
    Types (t.assignmentPlaces scope a) (Session.compileAssignment t scope a) := by
  refine .ofExcept_bind fun target => .ofExcept_bind fun value => ?_
  exact (value.types_resolveFor _).bind_nil fun _ => .pure _

end Table

namespace Session

variable (s : Session)

theorem types_compileSelect (q : Select) :
    Types (do return (← s.bindSelect q).places) (s.compileSelect q) :=
  .ofExcept_bind fun b => b.types_resolve.bind_nil fun _ => .ofExcept_then fun _ => .pure _

theorem types_compileInsertSource (t : Table) (targets : List TargetColumn)
    (source : InsertSource) :
    Types (s.insertPlaces t targets source) (s.compileInsertSource t targets source) := by
  cases source with
  | values rows =>
      exact (Types.mapM fun row _ => t.types_valueRow targets row).bind_nil fun _ => .pure _
  | select q =>
      refine (s.types_compileSelect q).bind_nil fun (root, results) => ?_
      exact .ofExcept_then fun _ => .ofExcept_then fun _ => .pure root

/-- Compiling a statement types the expressions of its places. -/
theorem types_compileRows (statement : Statement) :
    Types (s.places statement) (s.compileRows statement) := by
  cases statement with
  | select q => exact s.types_compileSelect q
  | insert table columns source =>
      refine Types.bind_nil ?_ fun _ => .pure _
      rw [compileInsert_eq]
      refine .ofExcept_bind fun t => .ofExcept_bind fun targets => ?_
      exact (s.types_compileInsertSource t targets source).bind_nil fun _ => .pure _
  | update table assignments predicate =>
      refine Types.bind_nil (.ofExcept_bind fun t => ?_) fun _ => .pure _
      refine (Types.mapM fun a _ => t.types_compileAssignment _ a).bind fun bound => ?_
      exact (t.types_filteredAccess _ predicate).bind_nil fun _ => .pure _
  | delete table predicate =>
      refine Types.bind_nil (.ofExcept_bind fun t => ?_) fun _ => .pure _
      exact (t.types_filteredAccess _ predicate).bind_nil fun _ => .pure _
  | _ => exact .throw _

/-- Compiling a statement gives a type to placeholders that it finds without one, and can be
repeated. -/
theorem repeats_compileRows (statement : Statement) :
    Repeats (s.openLooks statement) (s.compileRows statement) := by
  have htypes := s.types_compileRows statement
  unfold openLooks
  cases hplaces : s.places statement with
  | ok places => exact htypes.repeats places hplaces
  | error e =>
      have hfails {slots after : Slots} {rows : Operator × List ResultColumn}
          (h : (s.compileRows statement).runOn slots = .ok (rows, after)) : False := by
        obtain ⟨places, hok⟩ := htypes.binds slots rows after h
        rw [hplaces] at hok
        cases hok
      exact ⟨fun _ _ _ h => (hfails h).elim, fun _ _ _ h => (hfails h).elim⟩

end Session

/-! ## More known -/

namespace Table

theorem alike_filteredAccess (t : Table) (scope : Scope) (predicate : Option Expr) :
    Alike (· = ·) (t.filteredAccess scope predicate) (t.filteredAccess scope predicate) := by
  cases predicate with
  | none => exact .ofExcept (t.access 0 [])
  | some e =>
      refine .ofExcept_bind fun predicate _ => ?_
      refine predicate.alike_resolvePredicate.bind_any fun _ _ => ?_
      exact .ofExcept_bind fun op _ => .pure rfl

theorem alike_valueRow (t : Table) (targets : List TargetColumn) (row : List Expr) :
    Alike (· = ·) (t.valueRow targets row) (t.valueRow targets row) := by
  refine .ofExcept_bind fun _ _ => .mapM_eq fun (target, e) _ => ?_
  refine .ofExcept_bind fun bound _ => ?_
  exact (bound.alike_resolveFor _).bind_any fun _ _ => .pure rfl

theorem checkResults_orMismatch (t : Table) (targets : List TargetColumn)
    (results : List ResultColumn) :
    OrMismatch (fun _ => True) (t.checkResults targets results) := by
  refine OrMismatch.forM fun (target, result) _ => ?_
  dsimp only
  split
  next =>
    split
    · trivial
    · rfl
  next => trivial

end Table

/-- The operators of plans are the same, and the results have the same names and wider types. -/
def SameRows (rows rows' : Operator × List ResultColumn) : Prop :=
  rows.1 = rows'.1 ∧ List.Forall₂ ResultColumn.Widens rows.2 rows'.2

theorem SameRows.refl (rows : Operator × List ResultColumn) : SameRows rows rows :=
  ⟨rfl, List.forall₂_same.2 fun result _ => .refl result⟩

namespace Session

variable (s : Session)

theorem alike_compileSelect (q : Select) :
    Alike SameRows (s.compileSelect q) (s.compileSelect q) := by
  refine .ofExcept_bind fun b _ => ?_
  refine b.alike_resolve.bind (fun results => ?_) fun _ _ hwider => ?_
  · exact List.forall₂_same.2 fun result _ => .refl result
  · exact .ofExcept_bind fun op _ => .pure ⟨rfl, hwider⟩

theorem alike_compileInsertSource (t : Table) (targets : List TargetColumn)
    (source : InsertSource) :
    Alike (· = ·) (s.compileInsertSource t targets source)
      (s.compileInsertSource t targets source) := by
  cases source with
  | values rows =>
      have hrows := Alike.mapM_eq fun row (_ : row ∈ rows) => t.alike_valueRow targets row
      exact hrows.bind_eq fun bound => .pure rfl
  | select q =>
      refine (s.alike_compileSelect q).bind SameRows.refl ?_
      rintro ⟨root, results⟩ ⟨root', results'⟩ ⟨rfl, hresults⟩
      have hlength : results.length = results'.length := hresults.length_eq
      dsimp only
      rw [hlength]
      refine .ofExcept_bind fun _ _ => ?_
      have hcheck := t.checkResults_orMismatch targets results'
      refine (Alike.ofExcept_of_orMismatch hcheck).bind_any fun _ _ => ?_
      exact .pure rfl

/-- With more known, the operators of a statement are the same and its results have wider types, or
there is a type mismatch. -/
theorem alike_compileRows (statement : Statement) :
    Alike SameRows (s.compileRows statement) (s.compileRows statement) := by
  cases statement with
  | select q => exact s.alike_compileSelect q
  | insert table columns source =>
      refine Alike.bind_eq ?_ fun op => .pure (.refl _)
      rw [compileInsert_eq]
      refine .ofExcept_bind fun t _ => .ofExcept_bind fun targets _ => ?_
      exact (s.alike_compileInsertSource t targets source).bind_eq fun op => .pure rfl
  | update table assignments predicate =>
      refine Alike.bind_eq ?_ fun op => .pure (.refl _)
      refine .ofExcept_bind fun t _ => (Alike.mapM_eq fun a _ => ?_).bind_eq fun bound => ?_
      · refine .ofExcept_bind fun target _ => .ofExcept_bind fun value _ => ?_
        exact (value.alike_resolveFor _).bind_any fun _ _ => .pure rfl
      · exact (t.alike_filteredAccess _ predicate).bind_eq fun op => .pure rfl
  | delete table predicate =>
      refine Alike.bind_eq (.ofExcept_bind fun t _ => ?_) fun op => .pure (.refl _)
      exact (t.alike_filteredAccess _ predicate).bind_eq fun op => .pure rfl
  | _ => exact .throw _ _

end Session

end QueryPlanner
