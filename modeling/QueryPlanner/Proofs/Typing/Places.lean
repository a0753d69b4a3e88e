import QueryPlanner.Proofs.Typing.Repetition

/-!
# Expressions in their places

A statement has expressions in several places: a predicate, results, a sort order, values of
columns.  Typing comes to them one after the other, and some places ask for a type.  A computation
may bind and type the expressions of its places in turn; what it does to the slots is what typing
these expressions does.

Main statements: the rules for `Types`, and `types_resolve` for queries.
-/

namespace QueryPlanner

/-- An expression of a statement, with the type that its place asks for, if it asks for one. -/
structure Place where
  expr : BoundExpr
  target : Option DataType

namespace Place

/-- The slots after typing the expressions of places. -/
def slotsAfter : List Place → Slots → Slots
  | [], slots => slots
  | place :: rest, slots =>
      slotsAfter rest ((place.expr.resolveFor place.target).slotsAfter slots)

/-- The placeholders that typing finds without a type in places, each as often as it does. -/
def openLooks : List Place → Slots → List UInt64
  | [], _ => []
  | place :: rest, slots =>
      place.expr.openLooks slots ++
        openLooks rest ((place.expr.resolveFor place.target).slotsAfter slots)

/-- The places of several parts, one part after the other. -/
def inTurn {ι : Type} (parts : List ι) (places : ι → Except PlanError (List Place)) :
    Except PlanError (List Place) := do
  return (← parts.mapM places).flatten

theorem slotsAfter_append (places others : List Place) (slots : Slots) :
    slotsAfter (places ++ others) slots = slotsAfter others (slotsAfter places slots) := by
  induction places generalizing slots with
  | nil => rfl
  | cons place rest ih => exact ih _

theorem openLooks_append (places others : List Place) (slots : Slots) :
    openLooks (places ++ others) slots =
      openLooks places slots ++ openLooks others (slotsAfter places slots) := by
  induction places generalizing slots with
  | nil => rfl
  | cons place rest ih =>
      rw [List.cons_append, openLooks, ih, openLooks, slotsAfter, List.append_assoc]

end Place

namespace Typing

variable {α β : Type} {places others : Except PlanError (List Place)}

/-- The computation types the expressions of the given places, which there are if it succeeds. -/
structure Types (places : Except PlanError (List Place)) (t : Typing α) : Prop where
  binds : ∀ slots a after, t.runOn slots = .ok (a, after) → ∃ list, places = .ok list
  leaves : ∀ list, places = .ok list → ∀ slots a after, t.runOn slots = .ok (a, after) →
    after = Place.slotsAfter list slots
  repeats : ∀ list, places = .ok list → Repeats (Place.openLooks list) t

namespace Types

variable {t : Typing α} {f : α → Typing β}

theorem pure (a : α) : Types (.ok []) (pure a) where
  binds _ _ _ _ := ⟨[], rfl⟩
  leaves := by
    rintro list ⟨⟩ slots b after ⟨⟩
    rfl
  repeats _ _ := .pure a

theorem throw (e : PlanError) : Types places (throw e : Typing α) where
  binds := by rintro slots a after ⟨⟩
  leaves := by rintro list - slots a after ⟨⟩
  repeats _ _ := .throw e

/-- What does not look at slots. -/
theorem ofExcept_bind {x : Except PlanError α} {places : α → Except PlanError (List Place)}
    (hf : ∀ a, Types (places a) (f a)) : Types (x >>= places) (ofExcept x >>= f) := by
  cases x with
  | error e => exact throw e
  | ok a => exact hf a

/-- What looks neither at slots nor at expressions. -/
theorem ofExcept_then {x : Except PlanError α} (hf : ∀ a, Types places (f a)) :
    Types places (ofExcept x >>= f) := by
  cases x with
  | error e => exact throw e
  | ok a => exact hf a

theorem ofExcept (x : Except PlanError α) : Types (.ok []) (ofExcept x) := by
  cases x with
  | error e => exact throw e
  | ok a => exact pure a

/-- Places one after the other. -/
theorem bind (ht : Types places t) (hf : ∀ a, Types others (f a)) :
    Types (do return (← places) ++ (← others)) (t >>= f) := by
  -- there are places of the whole if there are places of both parts
  have hlists {list : List Place} (h : (do return (← places) ++ (← others)) = Except.ok list) :
      ∃ first last, places = .ok first ∧ others = .ok last ∧ list = first ++ last := by
    obtain ⟨first, hfirst, h⟩ := bind_eq_ok.1 h
    obtain ⟨last, hlast, h⟩ := bind_eq_ok.1 h
    cases h
    exact ⟨first, last, hfirst, hlast, rfl⟩
  constructor
  · intro slots b after h
    obtain ⟨a, middle, hmiddle, hafter⟩ := runOn_bind_eq_ok.1 h
    obtain ⟨first, hfirst⟩ := ht.binds slots a middle hmiddle
    obtain ⟨last, hlast⟩ := (hf a).binds middle b after hafter
    exact ⟨first ++ last, by rw [hfirst, hlast]; rfl⟩
  · intro list hlist slots b after h
    obtain ⟨first, last, hfirst, hlast, rfl⟩ := hlists hlist
    obtain ⟨a, middle, hmiddle, hafter⟩ := runOn_bind_eq_ok.1 h
    rw [Place.slotsAfter_append, ← ht.leaves first hfirst slots a middle hmiddle]
    exact (hf a).leaves last hlast middle b after hafter
  · intro list hlist
    obtain ⟨first, last, hfirst, hlast, rfl⟩ := hlists hlist
    refine ((ht.repeats first hfirst).bind fun a => (hf a).repeats last hlast).congr ?_
    intro slots b after h
    obtain ⟨a, middle, hmiddle, -⟩ := runOn_bind_eq_ok.1 h
    rw [Place.openLooks_append, slotsAfter_of_runOn hmiddle,
      ht.leaves first hfirst slots a middle hmiddle]

/-- What has no places may follow. -/
theorem bind_nil (ht : Types places t) (hf : ∀ a, Types (.ok []) (f a)) :
    Types places (t >>= f) := by
  convert ht.bind hf using 1
  cases places with
  | error e => rfl
  | ok list => exact congrArg Except.ok (List.append_nil list).symm

theorem mapM {ι : Type} {f : ι → Typing α} {places : ι → Except PlanError (List Place)}
    {l : List ι} (h : ∀ i ∈ l, Types (places i) (f i)) :
    Types (Place.inTurn l places) (l.mapM f) := by
  induction l with
  | nil => exact pure []
  | cons i l ih =>
      rw [List.forall_mem_cons] at h
      rw [List.mapM_cons]
      convert h.1.bind fun a => (ih h.2).bind_nil fun as => pure (a :: as) using 1
      unfold Place.inTurn
      rw [List.mapM_cons]
      cases places i with
      | error e => rfl
      | ok list => cases l.mapM places <;> rfl

/-- Expressions that are bound already, one at each place. -/
theorem mapM_ok {ι : Type} {f : ι → Typing α} {place : ι → Place} {l : List ι}
    (h : ∀ i ∈ l, Types (.ok [place i]) (f i)) : Types (.ok (l.map place)) (l.mapM f) := by
  induction l with
  | nil => exact pure []
  | cons i l ih =>
      rw [List.forall_mem_cons] at h
      rw [List.mapM_cons]
      exact h.1.bind fun a => (ih h.2).bind_nil fun as => pure (a :: as)

theorem forM_ok {ι : Type} {f : ι → Typing PUnit} {place : ι → Place} {l : List ι}
    (h : ∀ i ∈ l, Types (.ok [place i]) (f i)) : Types (.ok (l.map place)) (l.forM f) := by
  induction l with
  | nil => exact pure _
  | cons i l ih =>
      rw [List.forall_mem_cons] at h
      exact h.1.bind fun _ => ih h.2

end Types

end Typing

open Typing

/-! ## Places of expressions -/

namespace BoundExpr

theorem types_resolveFor (e : BoundExpr) (target : Option DataType) :
    Types (.ok [⟨e, target⟩]) (e.resolveFor target) where
  binds _ _ _ _ := ⟨_, rfl⟩
  leaves := by
    rintro list ⟨⟩ slots a after h
    exact (slotsAfter_of_runOn h).symm
  repeats := by
    rintro list ⟨⟩
    refine (repeats_resolveFor e.repeats_resolve target).congr fun slots _ _ _ => ?_
    exact (List.append_nil _).symm

/-- A predicate is an expression in a place that asks for the boolean type. -/
theorem types_resolvePredicate (e : BoundExpr) :
    Types (.ok [⟨e, some .boolean⟩]) e.resolvePredicate where
  binds _ _ _ _ := ⟨_, rfl⟩
  leaves := by
    rintro list ⟨⟩ slots ⟨⟩ after h
    refine (slotsAfter_of_runOn (a := ()) ?_).symm
    obtain ⟨type, middle, hresolve, hafter⟩ := runOn_bind_eq_ok.1 h
    refine runOn_bind_eq_ok.2 ⟨type, middle, hresolve, ?_⟩
    cases type with
    | none => exact hafter
    | some type =>
        cases type with
        | boolean => exact hafter
        | _ => cases hafter
  repeats := by
    rintro list ⟨⟩
    refine (repeats_resolvePredicate e.repeats_resolve).congr fun slots _ _ _ => ?_
    exact (List.append_nil _).symm

/-- An expression may stand in a place that asks for no type. -/
theorem types_resolve (e : BoundExpr) : Types (.ok [⟨e, none⟩]) e.resolve where
  binds _ _ _ _ := ⟨_, rfl⟩
  leaves := by
    rintro list ⟨⟩ slots type after h
    refine (slotsAfter_of_runOn (a := ()) ?_).symm
    refine runOn_bind_eq_ok.2 ⟨type, after, h, ?_⟩
    cases type with
    | none =>
        show (e.infer none).runOn after = _
        rw [infer_none]
        rfl
    | some type => rfl
  repeats := by
    rintro list ⟨⟩
    refine e.repeats_resolve.congr fun slots _ _ _ => ?_
    exact (List.append_nil _).symm

end BoundExpr

/-! ## Queries -/

namespace BoundSelect

/-- The places of a query: its predicate, its results, its sort order. -/
def places (q : BoundSelect) : List Place :=
  q.predicate.toList.map (⟨·, some .boolean⟩) ++
    (q.results.map (⟨·.expr, none⟩) ++ q.order.map (⟨·.expr, none⟩))

theorem types_resolve (q : BoundSelect) : Types (.ok q.places) q.resolve := by
  have hwhere : Types (.ok (q.predicate.toList.map (⟨·, some .boolean⟩))) q.resolveWhere := by
    unfold resolveWhere
    cases q.predicate with
    | none => exact .pure ()
    | some predicate => exact predicate.types_resolvePredicate
  have hresults : Types (.ok (q.results.map (⟨·.expr, none⟩))) q.resolveResults :=
    .mapM_ok fun item _ => item.expr.types_resolve.bind_nil fun _ => .pure _
  have horder : Types (.ok (q.order.map (⟨·.expr, none⟩))) q.resolveOrder :=
    .forM_ok fun item _ => item.expr.types_resolve.bind_nil fun _ => .pure _
  rw [resolve_eq]
  exact hwhere.bind fun _ => hresults.bind fun _ => horder.bind_nil fun _ => .pure _

end BoundSelect

end QueryPlanner
