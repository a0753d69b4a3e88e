import QueryPlanner.Proofs.Binding.Cycles

/-!
# Views on their own

Binding a reference depends on the views being expanded around it only through those that the
reference leads to: if none of these is, the reference stands for what it stands for on its own
(`bindSource_of_fresh`).  A reference to a view that is bound leads to none of the views around it,
so that the query of a view is bound inside another query as it is on its own.

Main statement: `bindSource_view_iff`.
-/

namespace QueryPlanner

namespace Select

variable {bindSource bindSource' : TableRef → Except PlanError BoundSource}

theorem bindSources_congr {before : Scope} {refs : List TableRef}
    (h : ∀ r ∈ refs, bindSource r = bindSource' r) :
    bindSources bindSource before refs = bindSources bindSource' before refs := by
  induction refs generalizing before with
  | nil => rfl
  | cons r rest ih =>
      rw [List.forall_mem_cons] at h
      unfold bindSources
      rw [h.1]
      congr 1
      funext source
      dsimp only
      split
      · rfl
      · exact ih h.2

/-- How a query is bound depends on its own sources only. -/
theorem bindWith_congr {q : Select} (h : ∀ r ∈ q.sources, bindSource r = bindSource' r) :
    q.bindWith bindSource = q.bindWith bindSource' := by
  unfold bindWith
  rw [bindSources_congr h]

end Select

namespace Session

variable {s : Session}

/-- None of the views that a reference leads to is being expanded. -/
def IsFresh (s : Session) (expanding : List String) (r : TableRef) : Prop :=
  ∀ v, s.view? r.name = some v → ∀ w, Relation.ReflTransGen s.ViewRefersTo v w →
    Named.key w ∉ expanding

theorem isFresh_nil (s : Session) (r : TableRef) : s.IsFresh [] r :=
  fun _ _ _ _ => List.not_mem_nil

/-- A bound reference stands for the same wherever it leads to no view that is being expanded, by
induction on the views that are not being expanded where it was bound. -/
theorem bindSource_of_fresh (s : Session) (expanding : List String) :
    ∀ r source, s.bindSource expanding r = .ok source → ∀ others, s.IsFresh others r →
      s.bindSource others r = .ok source := by
  induction expanding using s.expansion_induction with
  | inside expanding ih =>
      intro r source h others hfresh
      obtain ⟨hview, t, ht, rfl⟩ | ⟨w, hview, hkey, b, hb, hsource⟩ := bindSource_eq_ok h
      · rw [bindSource_of_table hview, ht]
        rfl
      · have hothers : Named.key w ∉ others := hfresh w hview w .refl
        have hsame : ∀ r' ∈ w.query.sources, s.bindSource (Named.key w :: expanding) r' =
            s.bindSource (Named.key w :: others) r' := by
          intro r' hr'
          obtain ⟨source', hsource'⟩ := exists_of_mapM (Select.bindWith_eq_ok hb).sources hr'
          rw [hsource']
          refine (ih w (mem_views_of_view? hview) hkey r' source' hsource' _ ?_).symm
          intro v hv u hleads
          -- The view itself is not come back to, and what is led to from it is fresh outside.
          have hinside := (s.not_isRecursive_of_bindSource _ r' source' hsource' v hv u hleads).1
          have houtside := hfresh w hview u (.head (refersTo_iff.2 ⟨r', hr', hv⟩) hleads)
          rw [List.mem_cons, not_or] at hinside ⊢
          exact ⟨hinside.1, houtside⟩
        rw [bindSource_of_view hview hothers, ← Select.bindWith_congr hsame, hb]
        exact hsource

/-- The query of a view leads to no view that its own expansion is inside of. -/
theorem isFresh_of_bindSelect {w : View} (hw : w ∈ s.views.items) {b : BoundSelect}
    (h : s.bindSelect w.query = .ok b) {r : TableRef} (hr : r ∈ w.query.sources) :
    s.IsFresh [Named.key w] r := by
  intro v hv u hleads hmem
  have hu : u ∈ s.views.items := by
    rcases hleads.cases_tail with rfl | ⟨_, -, hstep⟩
    · exact mem_views_of_view? hv
    · exact hstep.1
  obtain rfl := Directory.eq_of_key_eq hu hw (List.mem_singleton.1 hmem)
  have hrefers : s.ViewRefersTo u v := refersTo_iff.2 ⟨r, hr, hv⟩
  exact not_isRecursive_of_bindSelect h ⟨v, hrefers, hleads⟩ (.head' hrefers hleads)

/-- A reference to a view is bound if and only if the query of the view is bound on its own and the
view can name its results. -/
theorem bindSource_view_iff {r : TableRef} {w : View} (hview : s.view? r.name = some w)
    {source : BoundSource} :
    s.bindSource [] r = .ok source ↔
      ∃ b, s.bindSelect w.query = .ok b ∧ w.source r.aliasName b = .ok source := by
  rw [bindSource_of_view hview List.not_mem_nil, bind_eq_ok]
  refine exists_congr fun b => and_congr_left fun _ => ?_
  constructor
  · intro hb
    have hsame : ∀ r' ∈ w.query.sources,
        s.bindSource [Named.key w] r' = s.bindSource [] r' := by
      intro r' hr'
      obtain ⟨source', hsource'⟩ := exists_of_mapM (Select.bindWith_eq_ok hb).sources hr'
      rw [hsource', s.bindSource_of_fresh _ r' source' hsource' [] (s.isFresh_nil r')]
    rw [bindSelect, ← Select.bindWith_congr hsame, hb]
  · intro hb
    have hsame : ∀ r' ∈ w.query.sources,
        s.bindSource [] r' = s.bindSource [Named.key w] r' := by
      intro r' hr'
      obtain ⟨source', hsource'⟩ := exists_of_mapM (Select.bindWith_eq_ok hb).sources hr'
      have hfresh := isFresh_of_bindSelect (mem_views_of_view? hview) hb hr'
      rw [hsource', s.bindSource_of_fresh _ r' source' hsource' _ hfresh]
    rw [← Select.bindWith_congr hsame]
    exact hb

end Session

end QueryPlanner
