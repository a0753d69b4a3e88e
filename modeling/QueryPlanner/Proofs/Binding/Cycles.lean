import Mathlib.Logic.Relation
import QueryPlanner.Proofs.Binding.Result
import QueryPlanner.Proofs.Binding.Stack

/-!
# Recursive views

A view refers to another one when a source of its query goes by the name of the other.  A query is
refused for a recursive view only if it leads to a view that refers to itself, over however many
steps, and it is not bound unless none of the views it leads to does.  Views that are referred to
from several places are no reason to refuse it.

Main statement: `bindSelect_recursion`.  It also says how deep expansions nest, and that the stack
of the views being expanded is left as it was.
-/

namespace QueryPlanner

/-! ## Who finds recursive views -/

/-- Looking names up never finds a recursive view. -/
theorem lookups_notRecursive : Lookups fun _ x => ∀ name, x ≠ .error (.recursiveView name) where
  ok _ := nofun
  bind {α β x f} hx hf name h := by
    cases x with
    | error e =>
        cases h
        exact hx name rfl
    | ok a => exact hf a name h
  refuse e _ he name h := by
    cases h
    exact he rfl

namespace Select

variable {bindSource : TableRef → Except PlanError BoundSource} {name : String}

theorem exists_of_bindSources_eq_error {before : Scope} {refs : List TableRef}
    (h : bindSources bindSource before refs = .error (.recursiveView name)) :
    ∃ r ∈ refs, bindSource r = .error (.recursiveView name) := by
  induction refs generalizing before with
  | nil => cases h
  | cons r rest ih =>
      unfold bindSources at h
      cases hsource : bindSource r with
      | error e =>
          rw [hsource] at h
          cases h
          exact ⟨r, List.mem_cons_self, hsource⟩
      | ok source =>
          rw [hsource, ok_bind] at h
          dsimp only at h
          split at h
          · cases h
          · obtain ⟨r', hr', hsource'⟩ := ih h
            exact ⟨r', List.mem_cons_of_mem _ hr', hsource'⟩

/-- A query is refused for a recursive view because one of its sources is. -/
theorem exists_of_bindWith_eq_error {q : Select}
    (h : q.bindWith bindSource = .error (.recursiveView name)) :
    ∃ r ∈ q.sources, bindSource r = .error (.recursiveView name) := by
  rw [bindWith_eq] at h
  exact exists_of_bindSources_eq_error
    (eq_error_of_bind h fun scope => lookups_notRecursive.bindIn scope q name)

end Select

namespace Session

/-! ## References between views -/

variable (s : Session)

/-- A query refers to a view: a source without a schema goes by its name, in any case. -/
def RefersTo (q : Select) (w : View) : Prop :=
  w ∈ s.views.items ∧
    ∃ r ∈ q.sources, r.name.schema = none ∧ Text.lowercase r.name.name = Named.key w

/-- A view refers to another one in its query. -/
def ViewRefersTo (v w : View) : Prop := s.RefersTo v.query w

/-- A query leads to a view, by a reference of its own or through other views. -/
def LeadsTo (q : Select) (w : View) : Prop :=
  ∃ v, s.RefersTo q v ∧ Relation.ReflTransGen s.ViewRefersTo v w

/-- A view refers to itself, through one or more steps. -/
def IsRecursive (w : View) : Prop := Relation.TransGen s.ViewRefersTo w w

variable {s} {expanding : List String}

theorem view?_eq_some_iff {name : ObjectName} {w : View} :
    s.view? name = some w ↔
      w ∈ s.views.items ∧ name.schema = none ∧ Text.lowercase name.name = Named.key w := by
  unfold view?
  cases hschema : name.schema with
  | some schema => simp
  | none =>
      refine ⟨fun h => ?_, fun h => Directory.find?_of_mem h.1 h.2.2⟩
      exact ⟨Directory.mem_of_find? h, rfl, (Directory.key_of_find? h).symm⟩

theorem refersTo_iff {q : Select} {w : View} :
    s.RefersTo q w ↔ ∃ r ∈ q.sources, s.view? r.name = some w := by
  constructor
  · rintro ⟨hw, r, hr, hname⟩
    exact ⟨r, hr, view?_eq_some_iff.2 ⟨hw, hname⟩⟩
  · rintro ⟨r, hr, hview⟩
    obtain ⟨hw, hname⟩ := view?_eq_some_iff.1 hview
    exact ⟨hw, r, hr, hname⟩

/-! ## What expansions find -/

/-- A reference refused for a recursive view leads to the view that is named, which is being
expanded already or refers to itself.  By induction on the views that are not being expanded: an
inner expansion that comes back to the view expanded outside closes a cycle. -/
theorem exists_of_bindSource_eq_error (s : Session) (expanding : List String) :
    ∀ r name, s.bindSource expanding r = .error (.recursiveView name) →
      ∃ v, s.view? r.name = some v ∧ ∃ w ∈ s.views.items, w.name = name ∧
        Relation.ReflTransGen s.ViewRefersTo v w ∧
        (Named.key w ∈ expanding ∨ s.IsRecursive w) := by
  induction expanding using s.expansion_induction with
  | inside expanding ih =>
      intro r name h
      cases hview : s.view? r.name with
      | none =>
          rw [bindSource_of_table hview, map_eq_error] at h
          exact absurd h (lookups_notRecursive.bindTable s r.name name)
      | some v =>
          have hv := mem_views_of_view? hview
          refine ⟨v, rfl, ?_⟩
          by_cases hkey : Named.key v ∈ expanding
          · rw [bindSource_of_expanding hview hkey] at h
            cases h
            exact ⟨v, hv, rfl, .refl, .inl hkey⟩
          · rw [bindSource_of_view hview hkey] at h
            have hquery := eq_error_of_bind h fun b =>
              lookups_notRecursive.source v r.aliasName b name
            obtain ⟨r', hr', hsource⟩ := Select.exists_of_bindWith_eq_error hquery
            obtain ⟨v', hv', w, hw, hname, hleads, hw'⟩ := ih v hv hkey r' name hsource
            have hstep : s.ViewRefersTo v v' := refersTo_iff.2 ⟨r', hr', hv'⟩
            refine ⟨w, hw, hname, .head hstep hleads, ?_⟩
            rcases hw' with hmem | hrec
            · rcases List.mem_cons.1 hmem with hsame | hmem
              · obtain rfl := Directory.eq_of_key_eq hw hv hsame
                exact .inr (.head' hstep hleads)
              · exact .inl hmem
            · exact .inr hrec

/-- None of the views that a bound reference leads to is being expanded already, and none refers to
itself. -/
theorem not_isRecursive_of_bindSource (s : Session) (expanding : List String) :
    ∀ r source, s.bindSource expanding r = .ok source → ∀ v, s.view? r.name = some v →
      ∀ w, Relation.ReflTransGen s.ViewRefersTo v w →
        Named.key w ∉ expanding ∧ ¬s.IsRecursive w := by
  induction expanding using s.expansion_induction with
  | inside expanding ih =>
      intro r source h v hview w hleads
      obtain ⟨hnone, -⟩ | ⟨v', hview', hkey, b, hb, -⟩ := bindSource_eq_ok h
      · cases hnone.symm.trans hview
      · cases hview'.symm.trans hview
        have hinner : ∀ v', s.ViewRefersTo v v' →
            ∀ w, Relation.ReflTransGen s.ViewRefersTo v' w →
              Named.key w ∉ Named.key v :: expanding ∧ ¬s.IsRecursive w := by
          intro v' hstep
          obtain ⟨r', hr', hview'⟩ := refersTo_iff.1 hstep
          obtain ⟨source', hsource'⟩ := exists_of_mapM (Select.bindWith_eq_ok hb).sources hr'
          exact ih v (mem_views_of_view? hview) hkey r' source' hsource' v' hview'
        rcases hleads.cases_head with rfl | ⟨v', hstep, hleads⟩
        · refine ⟨hkey, fun hrec => ?_⟩
          obtain ⟨v', hstep, hback⟩ := Relation.TransGen.head'_iff.1 hrec
          exact (hinner v' hstep v hback).1 List.mem_cons_self
        · obtain ⟨hfresh, hrec⟩ := hinner v' hstep w hleads
          exact ⟨fun hmem => hfresh (List.mem_cons_of_mem _ hmem), hrec⟩

/-! ## Queries -/

theorem exists_of_bindSelect_eq_error {q : Select} {name : String}
    (h : s.bindSelect q = .error (.recursiveView name)) :
    ∃ w, w.name = name ∧ s.LeadsTo q w ∧ s.IsRecursive w := by
  obtain ⟨r, hr, hsource⟩ := Select.exists_of_bindWith_eq_error h
  obtain ⟨v, hview, w, -, hname, hleads, hmem | hrec⟩ :=
    s.exists_of_bindSource_eq_error [] r name hsource
  · cases hmem
  · exact ⟨w, hname, ⟨v, refersTo_iff.2 ⟨r, hr, hview⟩, hleads⟩, hrec⟩

theorem not_isRecursive_of_bindSelect {q : Select} {b : BoundSelect}
    (h : s.bindSelect q = .ok b) {w : View} (hleads : s.LeadsTo q w) : ¬s.IsRecursive w := by
  obtain ⟨v, hrefers, hleads⟩ := hleads
  obtain ⟨r, hr, hview⟩ := refersTo_iff.1 hrefers
  obtain ⟨source, hsource⟩ := exists_of_mapM (Select.bindWith_eq_ok h).sources hr
  exact (s.not_isRecursive_of_bindSource [] r source hsource v hview w hleads).2

/-- Expansions nest no deeper than there are views, and leave the stack as it was, whether a query
is bound or not.  A query refused for a recursive view leads to it, and that view refers to itself.
A query that is bound leads to no such view.  A query that leads to no such view is not refused for
one, however often it leads to a view. -/
theorem bindSelect_recursion (s : Session) (q : Select) :
    (∀ stack, (s.bindSelectOn s.views.size q).run stack =
        match q.bindWith (s.bindSource stack) with
        | .ok b => .ok b stack
        | .error e => .error (.refused e) stack) ∧
      (∀ name, s.bindSelect q = .error (.recursiveView name) →
        ∃ w, w.name = name ∧ s.LeadsTo q w ∧ s.IsRecursive w) ∧
      (∀ b, s.bindSelect q = .ok b → ∀ w, s.LeadsTo q w → ¬s.IsRecursive w) ∧
      ((∀ w, s.LeadsTo q w → ¬s.IsRecursive w) →
        ∀ name, s.bindSelect q ≠ .error (.recursiveView name)) := by
  refine ⟨fun stack => ?_, fun name h => ?_, fun b h w hleads => ?_, fun hnone name h => ?_⟩
  · rw [run_bindSelectOn]
    cases q.bindWith (s.bindSource stack) <;> rfl
  · exact exists_of_bindSelect_eq_error h
  · exact not_isRecursive_of_bindSelect h hleads
  · obtain ⟨w, -, hleads, hrec⟩ := exists_of_bindSelect_eq_error h
    exact hnone w hleads hrec

end Session

/-- A query of all columns of some views. -/
def Select.all (sources : List String) : Select :=
  { items := [.wildcard], sources := sources.map fun name => { name := { name } } }

/-- A view of all columns of another one. -/
def View.all (name source : String) : View :=
  { name, columns := [], query := .all [source], parameterFree := rfl }

/-- The view `SELECT 1 AS n`. -/
def constantView (name : String) : View :=
  { name, columns := [], query := { items := [.expr (.literal (.integer 1)) (some "n") none] }
    parameterFree := rfl }

/-- A session with a view that two others refer to, and with two views that refer to each other. -/
def referringSession : Session :=
  { catalog := .empty
    defaultSchema := "main"
    views := [constantView "a", View.all "b" "a", View.all "c" "A",
      View.all "p" "Q", View.all "q" "P"].foldl Directory.insert .empty }

/-- A view of the column `n` as a source. -/
def referringSource (name : String) (query : BoundSelect) : BoundSource :=
  { aliasName := name, origin := .view name query, columns := [⟨"n", some .bigint, none⟩] }

/-- The query of the columns of such sources. -/
def referringBound (sources : List BoundSource) : BoundSelect :=
  { sources, results := (Scope.references sources).map fun column => ⟨.column column, "n"⟩
    predicate := none, order := [], offset := none, limit := none }

/-- The view that two others refer to. -/
def sharedSource : BoundSource :=
  referringSource "a" { referringBound [] with results := [⟨.literal (.integer 1), "n"⟩] }

theorem bindSelect_recursion_referringSession :
    referringSession.bindSelect (.all ["p"]) = .error (.recursiveView "p") ∧
      (∃ w, w.name = "p" ∧ referringSession.LeadsTo (.all ["p"]) w ∧
        referringSession.IsRecursive w) ∧
      (∃ b, referringSession.bindSelect (.all ["b", "c"]) = .ok b) ∧
      ∀ w, referringSession.LeadsTo (.all ["b", "c"]) w →
        ¬referringSession.IsRecursive w := by
  have hp : referringSession.bindSelect (.all ["p"]) = .error (.recursiveView "p") :=
    Session.bindSelect_of_run (by rfl)
  have hb : referringSession.bindSelect (.all ["b", "c"]) =
      .ok (referringBound [referringSource "b" (referringBound [sharedSource]),
        referringSource "c" (referringBound [sharedSource])]) :=
    Session.bindSelect_of_run (by with_unfolding_all rfl)
  obtain ⟨-, hrefused, -, -⟩ := Session.bindSelect_recursion referringSession (.all ["p"])
  obtain ⟨-, -, hbound, -⟩ := Session.bindSelect_recursion referringSession (.all ["b", "c"])
  exact ⟨hp, hrefused "p" hp, ⟨_, hb⟩, hbound _ hb⟩

end QueryPlanner
