import QueryPlanner.Catalog.Error

/-!
# Computations that may fail

When sequences and lists of computations succeed, and with what.
-/

namespace QueryPlanner

variable {ε α β : Type}

theorem bind_eq_ok {x : Except ε α} {f : α → Except ε β} {b : β} :
    x >>= f = .ok b ↔ ∃ a, x = .ok a ∧ f a = .ok b := by
  cases x <;> simp [bind, Except.bind]

theorem eq_error_of_bind {x : Except ε α} {f : α → Except ε β} {e : ε}
    (h : x >>= f = .error e) (hf : ∀ a, f a ≠ .error e) : x = .error e := by
  cases x with
  | error e' =>
      cases h
      rfl
  | ok a => exact absurd h (hf a)

theorem ok_bind {a : α} {f : α → Except ε β} : (Except.ok a >>= f) = f a := rfl

theorem map_eq_ok {x : Except ε α} {f : α → β} {b : β} :
    x.map f = .ok b ↔ ∃ a, x = .ok a ∧ f a = b := by
  cases x <;> simp [Except.map]

theorem map_eq_error {x : Except ε α} {f : α → β} {e : ε} :
    x.map f = .error e ↔ x = .error e := by
  cases x <;> simp [Except.map]

theorem exists_of_isOk {x : Except ε α} (h : x.isOk = true) : ∃ a, x = .ok a := by
  cases x with
  | error e => cases h
  | ok a => exact ⟨a, rfl⟩

/-- Computations of a list have their results at the places of the list of results. -/
theorem getElem?_of_mapM {f : α → Except ε β} {l : List α} {bs : List β} (h : l.mapM f = .ok bs) :
    bs.length = l.length ∧
      ∀ (i : Nat) a, l[i]? = some a → ∃ b, bs[i]? = some b ∧ f a = .ok b := by
  induction l generalizing bs with
  | nil =>
      cases h
      exact ⟨rfl, nofun⟩
  | cons first l ih =>
      rw [List.mapM_cons] at h
      obtain ⟨b, hb, h⟩ := bind_eq_ok.1 h
      obtain ⟨rest, hrest, h⟩ := bind_eq_ok.1 h
      cases h
      obtain ⟨hlength, hrest⟩ := ih hrest
      refine ⟨congrArg Nat.succ hlength, fun i a ha => ?_⟩
      cases i with
      | zero =>
          cases ha
          exact ⟨b, rfl, hb⟩
      | succ i => exact hrest i a ha

/-- Each of a list of computations that succeed has a result. -/
theorem exists_of_mapM {f : α → Except ε β} {l : List α} {bs : List β} (h : l.mapM f = .ok bs)
    {a : α} (ha : a ∈ l) : ∃ b, f a = .ok b := by
  obtain ⟨i, hi⟩ := List.getElem?_of_mem ha
  obtain ⟨b, -, hb⟩ := (getElem?_of_mapM h).2 i a hi
  exact ⟨b, hb⟩

/-- A list of computations each of which succeeds does. -/
theorem exists_mapM {f : α → Except ε β} {l : List α} (h : ∀ a ∈ l, ∃ b, f a = .ok b) :
    ∃ bs, l.mapM f = .ok bs := by
  induction l with
  | nil => exact ⟨[], rfl⟩
  | cons a l ih =>
      rw [List.forall_mem_cons] at h
      obtain ⟨⟨b, hb⟩, hrest⟩ := h
      obtain ⟨bs, hbs⟩ := ih hrest
      exact ⟨b :: bs, by rw [List.mapM_cons, hb, hbs]; rfl⟩

/-- Every result of a list of computations is the result of one of them. -/
theorem exists_of_mem_mapM {f : α → Except ε β} {l : List α} {bs : List β}
    (h : l.mapM f = .ok bs) {b : β} (hb : b ∈ bs) : ∃ a ∈ l, f a = .ok b := by
  obtain ⟨hlength, hresults⟩ := getElem?_of_mapM h
  obtain ⟨i, hi⟩ := List.getElem?_of_mem hb
  obtain ⟨hlt, -⟩ := List.getElem?_eq_some_iff.1 hi
  obtain ⟨b', hb', ha⟩ := hresults i l[i] (List.getElem?_eq_getElem (hlength ▸ hlt))
  rw [hi] at hb'
  cases hb'
  exact ⟨l[i], List.getElem_mem _, ha⟩

/-- What lists read off the results of computations, if it is read off what they compute with. -/
theorem flatMap_of_mapM {γ : Type} {f : α → Except ε β} {g : β → List γ} {h : α → List γ}
    (hfg : ∀ a b, f a = .ok b → g b = h a) {l : List α} {bs : List β} (hl : l.mapM f = .ok bs) :
    bs.flatMap g = l.flatMap h := by
  induction l generalizing bs with
  | nil =>
      cases hl
      rfl
  | cons a l ih =>
      rw [List.mapM_cons] at hl
      obtain ⟨first, hfirst, hl⟩ := bind_eq_ok.1 hl
      obtain ⟨rest, hrest, hl⟩ := bind_eq_ok.1 hl
      cases hl
      rw [List.flatMap_cons, List.flatMap_cons, hfg a first hfirst, ih hrest]

theorem flatMap_of_option_mapM {γ : Type} {f : α → Except ε β} {g : β → List γ} {h : α → List γ}
    (hfg : ∀ a b, f a = .ok b → g b = h a) {o : Option α} {b : Option β}
    (ho : o.mapM f = .ok b) : b.toList.flatMap g = o.toList.flatMap h := by
  cases o with
  | none =>
      cases ho
      rfl
  | some a =>
      obtain ⟨b, hb, ho⟩ := map_eq_ok.1 ho
      cases ho
      show g b ++ [] = h a ++ []
      rw [hfg a b hb]

end QueryPlanner
