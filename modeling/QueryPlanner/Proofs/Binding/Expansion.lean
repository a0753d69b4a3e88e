import QueryPlanner.Binding
import QueryPlanner.Proofs.Except

/-!
# Expansion of views

A reference stands for a table, or for the query of a view that is not being expanded yet
(`bindSource_eq_ok`).  Every expansion leaves fewer views to expand, so a statement about all
expansions may be proved from what it says of the expansions inside (`expansion_induction`).
-/

namespace QueryPlanner

namespace Session

variable {s : Session} {expanding : List String} {r : TableRef}

theorem bindSource_of_table (h : s.view? r.name = none) :
    s.bindSource expanding r = (s.bindTable r.name).map fun t => .ofTable t r.aliasName := by
  rw [bindSource]
  split
  next => cases s.bindTable r.name <;> rfl
  next w hview =>
    rw [h] at hview
    cases hview

theorem bindSource_of_view {w : View} (h : s.view? r.name = some w)
    (hkey : Named.key w ∉ expanding) :
    s.bindSource expanding r =
      w.query.bindWith (s.bindSource (Named.key w :: expanding)) >>= w.source r.aliasName := by
  rw [bindSource]
  split
  next hview =>
    rw [h] at hview
    cases hview
  next w' hview =>
    rw [h] at hview
    cases hview
    rw [dif_neg hkey]

theorem bindSource_of_expanding {w : View} (h : s.view? r.name = some w)
    (hkey : Named.key w ∈ expanding) :
    s.bindSource expanding r = .error (.recursiveView w.name) := by
  rw [bindSource]
  split
  next hview =>
    rw [h] at hview
    cases hview
  next w' hview =>
    rw [h] at hview
    cases hview
    rw [dif_pos hkey]

/-- What a bound reference stands for. -/
theorem bindSource_eq_ok {source : BoundSource} (h : s.bindSource expanding r = .ok source) :
    (s.view? r.name = none ∧ ∃ t, s.bindTable r.name = .ok t ∧ .ofTable t r.aliasName = source) ∨
      ∃ w, s.view? r.name = some w ∧ Named.key w ∉ expanding ∧
        ∃ b, w.query.bindWith (s.bindSource (Named.key w :: expanding)) = .ok b ∧
          w.source r.aliasName b = .ok source := by
  cases hview : s.view? r.name with
  | none =>
      rw [bindSource_of_table hview, map_eq_ok] at h
      exact .inl ⟨rfl, h⟩
  | some w =>
      refine .inr ⟨w, rfl, ?_⟩
      by_cases hkey : Named.key w ∈ expanding
      · rw [bindSource_of_expanding hview hkey] at h
        cases h
      · rw [bindSource_of_view hview hkey] at h
        exact ⟨hkey, bind_eq_ok.1 h⟩

/-- What holds for an expansion whenever it holds for the expansions inside holds for all. -/
theorem expansion_induction (s : Session) {motive : List String → Prop}
    (inside : ∀ expanding, (∀ w ∈ s.views.items, Named.key w ∉ expanding →
      motive (Named.key w :: expanding)) → motive expanding) (expanding : List String) :
    motive expanding := by
  generalize hn : (s.unexpanded expanding).length = n
  induction n using Nat.strongRecOn generalizing expanding with
  | _ n ih =>
      subst hn
      exact inside expanding fun w hw hkey => ih _ (length_unexpanded_lt hw hkey) _ rfl

end Session

end QueryPlanner
