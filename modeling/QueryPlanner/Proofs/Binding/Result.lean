import QueryPlanner.Proofs.Binding.Expansion
import QueryPlanner.Proofs.Binding.Lookups

/-!
# What binding gives

A bound query has the parts of the query, each of them bound in the scope of its sources
(`bindWith_eq_ok`).  A query is refused for what it says, never for the shape of a key range
(`gives_bindSelect`).
-/

namespace QueryPlanner

/-- Looking names up is not refused for the shape of a key range. -/
theorem lookups_gives : Lookups fun _ x => Gives (fun _ => True) x where
  ok _ := trivial
  bind hx hf := hx.bind fun a _ => hf a
  refuse e he _ := by
    show e.code.category ≠ .structural
    rw [he]
    nofun

namespace Scope

variable (scope : Scope)

/-- Expressions are refused for their names only. -/
theorem gives_bindExpr (e : Expr) : Gives (fun _ => True) (scope.bindExpr e) :=
  lookups_gives.bindExpr scope e

end Scope

/-! ## Queries -/

namespace Select

variable {bindSource : TableRef → Except PlanError BoundSource}

/-- A bound query has the parts of a query. -/
structure Binds (bindSource : TableRef → Except PlanError BoundSource) (q : Select)
    (b : BoundSelect) : Prop where
  sources : q.sources.mapM bindSource = .ok b.sources
  results : ∃ results, q.items.mapM (Scope.bindItem b.sources) = .ok results ∧
    b.results = results.flatten
  predicate : q.predicate.mapM (Scope.bindExpr b.sources) = .ok b.predicate
  order : q.order.mapM (Scope.bindOrderItem b.sources) = .ok b.order
  offset : b.offset = q.offset
  limit : b.limit = q.limit

theorem exists_of_bindSources {before scope : Scope} {refs : List TableRef}
    (h : bindSources bindSource before refs = .ok scope) :
    ∃ sources, refs.mapM bindSource = .ok sources ∧ scope = before ++ sources := by
  induction refs generalizing before with
  | nil =>
      cases h
      exact ⟨[], rfl, (List.append_nil _).symm⟩
  | cons r rest ih =>
      unfold bindSources at h
      obtain ⟨source, hsource, h⟩ := bind_eq_ok.1 h
      dsimp only at h
      split at h
      · cases h
      · obtain ⟨sources, hsources, rfl⟩ := ih h
        refine ⟨source :: sources, ?_, by simp⟩
        rw [List.mapM_cons, hsource, hsources]
        rfl

theorem bindWith_eq_ok {q : Select} {b : BoundSelect} (h : q.bindWith bindSource = .ok b) :
    q.Binds bindSource b := by
  unfold bindWith at h
  obtain ⟨scope, hscope, h⟩ := bind_eq_ok.1 h
  obtain ⟨results, hresults, h⟩ := bind_eq_ok.1 h
  obtain ⟨predicate, hpredicate, h⟩ := bind_eq_ok.1 h
  obtain ⟨order, horder, h⟩ := bind_eq_ok.1 h
  cases h
  obtain ⟨sources, hsources, rfl⟩ := exists_of_bindSources hscope
  exact ⟨hsources, ⟨results, hresults, rfl⟩, hpredicate, horder, rfl, rfl⟩

theorem gives_bindSources (h : ∀ r, Gives (fun _ => True) (bindSource r)) (before : Scope)
    (refs : List TableRef) : Gives (fun _ => True) (bindSources bindSource before refs) := by
  induction refs generalizing before with
  | nil => trivial
  | cons r rest ih =>
      refine (h r).bind fun source _ => ?_
      dsimp only
      split
      · exact nofun
      · exact ih _

theorem gives_bindWith (h : ∀ r, Gives (fun _ => True) (bindSource r)) (q : Select) :
    Gives (fun _ => True) (q.bindWith bindSource) :=
  (gives_bindSources h [] q.sources).bind fun scope _ => lookups_gives.bindIn scope q

end Select

/-- A reference stands for a view if the names of the view, if it has any, are as many as the
results of its query, and the results are typed. -/
theorem View.source_eq_ok_iff {w : View} {aliasName : Option String} {q : BoundSelect}
    {source : BoundSource} :
    w.source aliasName q = .ok source ↔
      (w.columns = [] ∨ w.columns.length = q.results.length) ∧
        ∃ types, resultTypes q.results = .ok types ∧
          source =
            { aliasName := aliasName.getD w.name
              origin := .view w.name q
              columns := (q.results.zip types).zipIdx.map fun ((item, type), i) =>
                { name := w.columns[i]?.getD item.name
                  type := type
                  collation := resultCollation item.expr } } := by
  have hwidth : (!w.columns.isEmpty && w.columns.length != q.results.length) = true ↔
      ¬(w.columns = [] ∨ w.columns.length = q.results.length) := by
    simp
  unfold View.source
  dsimp only
  split
  next hother => exact ⟨nofun, fun h => absurd h.1 (hwidth.1 hother)⟩
  next hnames =>
    rw [hwidth, not_not] at hnames
    constructor
    · intro h
      obtain ⟨types, htypes, h⟩ := bind_eq_ok.1 h
      cases h
      exact ⟨hnames, types, htypes, rfl⟩
    · rintro ⟨-, types, htypes, rfl⟩
      exact bind_eq_ok.2 ⟨types, htypes, rfl⟩

namespace Session

theorem table?_of_bindTable {s : Session} {name : ObjectName} {t : Table}
    (h : s.bindTable name = .ok t) : s.catalog.table? (name.qualify s.defaultSchema) = some t := by
  unfold bindTable at h
  dsimp only at h
  split at h
  · split at h
    next table htable =>
      cases h
      exact htable
    next => cases h
  · cases h

theorem gives_bindTable (s : Session) (name : ObjectName) :
    Gives (fun _ => True) (s.bindTable name) := lookups_gives.bindTable s name

theorem gives_bindSource (s : Session) (expanding : List String) (r : TableRef) :
    Gives (fun _ => True) (s.bindSource expanding r) := by
  induction expanding using s.expansion_induction generalizing r with
  | inside expanding ih =>
      cases h : s.view? r.name with
      | none =>
          rw [bindSource_of_table h]
          exact (s.gives_bindTable r.name).map
      | some w =>
          by_cases hkey : Named.key w ∈ expanding
          · rw [bindSource_of_expanding h hkey]
            exact nofun
          · rw [bindSource_of_view h hkey]
            refine (Select.gives_bindWith (ih w (mem_views_of_view? h) hkey) w.query).bind ?_
            exact fun q _ => lookups_gives.source w r.aliasName q

/-- A query is not refused for the shape of a key range. -/
theorem gives_bindSelect (s : Session) (q : Select) : Gives (fun _ => True) (s.bindSelect q) :=
  Select.gives_bindWith (s.gives_bindSource []) q

end Session

end QueryPlanner
