import QueryPlanner.Proofs.Catalog.Ownership
import QueryPlanner.Session.Apply

/-!
# Sessions that declarations lead to

A session starts without views, over a catalog that changes have made, and every declaration that it
accepts makes another session of it.  A declaration changes the catalog once or not at all
(`catalog_of_apply`), so what changes keep holds of the catalogs of all these sessions.

Main statement: `Reachable.each`.
-/

namespace QueryPlanner

namespace Session

/-- The sessions that declarations lead to. -/
inductive Reachable : Session → Prop where
  | start {catalog : Catalog} (changes : List Change)
      (made : changes.foldlM Catalog.apply .empty = .ok catalog) (defaultSchema : String) :
      Reachable { catalog, defaultSchema }
  | apply {s s' : Session} (reachable : Reachable s) (statement : Statement)
      (hints : List (Option DataType)) (applied : s.apply statement hints = .ok s') : Reachable s'

variable {s s' : Session} {statement : Statement} {hints : List (Option DataType)}

theorem catalog_of_changeViews {change : Views → Except CatalogError Views}
    (h : s.changeViews change = .ok s') : s'.catalog = s.catalog := by
  obtain ⟨views, -, h⟩ := bind_eq_ok.1 h
  cases h
  rfl

theorem catalog_of_declare (h : s.declare statement = .ok s') :
    s'.catalog = s.catalog ∨ ∃ change, s.catalog.apply change = .ok s'.catalog := by
  unfold declare at h
  dsimp only at h
  split at h
  next declared hdeclared =>
    cases h
    split at hdeclared
    next change _ =>
      obtain ⟨s', hs', hdeclared⟩ := map_eq_ok.1 hdeclared
      cases hdeclared
      obtain ⟨catalog, hcatalog, hs'⟩ := bind_eq_ok.1 hs'
      cases hs'
      exact .inr ⟨change, hcatalog⟩
    next =>
      obtain ⟨s', hs', hdeclared⟩ := map_eq_ok.1 hdeclared
      cases hdeclared
      exact .inl (catalog_of_changeViews hs')
    next =>
      obtain ⟨s', hs', hdeclared⟩ := map_eq_ok.1 hdeclared
      cases hdeclared
      exact .inl (catalog_of_changeViews hs')
    next => cases hdeclared
  next => cases h
  next => cases h

/-- A statement that is applied changes the catalog once or not at all. -/
theorem catalog_of_apply (h : s.apply statement hints = .ok s') :
    s'.catalog = s.catalog ∨ ∃ change, s.catalog.apply change = .ok s'.catalog := by
  unfold Session.apply at h
  split at h
  next => cases h
  next => cases h
  next =>
    split at h
    · exact catalog_of_declare h
    · cases h

namespace Reachable

/-- A run of declarations. -/
theorem foldlM {statements : List Statement} (hs : s.Reachable)
    (h : statements.foldlM (fun s statement => s.apply statement []) s = .ok s') :
    s'.Reachable := by
  induction statements generalizing s with
  | nil =>
      cases h
      exact hs
  | cons statement rest ih =>
      rw [List.foldlM_cons] at h
      obtain ⟨next, hnext, hrest⟩ := bind_eq_ok.1 h
      exact ih (.apply hs statement [] hnext) hrest

/-- What changes keep of tables holds of all tables of a session. -/
theorem each {P : String → Table → Prop} (hP : Catalog.Kept P) (h : s.Reachable) :
    s.catalog.Each P := by
  induction h with
  | start changes made defaultSchema => exact .foldlM hP .empty made
  | apply reachable statement hints applied ih =>
      rcases catalog_of_apply applied with hsame | ⟨change, hchange⟩
      · rw [hsame]
        exact ih
      · exact .apply hP ih hchange

theorem ownsIndexes (h : s.Reachable) : s.catalog.OwnsIndexes :=
  Catalog.ownsIndexes_iff_each.2 (h.each Catalog.kept_ownsIndexes)

theorem namesSchemas (h : s.Reachable) : s.catalog.NamesSchemas :=
  h.each Catalog.kept_namesSchemas

end Reachable

end Session

end QueryPlanner
