import QueryPlanner.Proofs.Plan.Erasure

/-!
# Where limits go

The numbers of rows that a query skips and returns stand beside the operators of a plan, and are
those of the statement itself.  No operator holds those of a query inside it: neither of the query
that an insertion takes its rows from, nor of a view.

Main statement: `compile_limits`.
-/

namespace QueryPlanner

/-- Keeping tables as they are. -/
def Erasure.keep : Erasure where
  table t := t
  name_table _ := rfl
  columns_table _ := rfl

theorem Directory.map_id {α : Type} [Named α] {f : α → α}
    (hf : ∀ a, Named.name (f a) = Named.name a) (hid : ∀ a, f a = a) (d : Directory α) :
    d.map f hf = d := by
  apply Directory.ext
  show d.items.map f = d.items
  rw [funext hid]
  exact List.map_id' d.items

theorem Catalog.erase_keep (c : Catalog) : c.erase .keep = c := by
  have hschema (schema : Schema) : schema.erase .keep = schema := by
    unfold Schema.erase
    rw [Directory.map_id Erasure.keep.named_table fun _ => rfl]
  show (⟨c.schemas.map (Schema.erase .keep) (Schema.name_erase .keep)⟩ : Catalog) = c
  rw [Directory.map_id (Schema.name_erase .keep) hschema]

theorem Erasure.fitsTable_keep (t : Table) : Erasure.keep.FitsTable .indexScan t := by
  intro source conjuncts
  show t.access source conjuncts = _
  rw [funext Operator.mapScans_indexScan]
  cases t.access source conjuncts <;> rfl

/-- The outcome whose plan, if it has one, skips and returns the given numbers of rows. -/
def Outcome.limited (offset limit : Option UInt64) : Outcome → Outcome
  | .plan p => .plan { p with offset, limit }
  | .notApplicable => .notApplicable

namespace Session

/-- The session whose views have no limits. -/
def unlimited (s : Session) : Session :=
  { s with views := s.views.map View.unlimited View.named_unlimited }

theorem erase_keep (s : Session) : s.erase .keep = s.unlimited := by
  unfold erase
  rw [Catalog.erase_keep]
  rfl

theorem unlimited_unlimited (s : Session) : s.unlimited.unlimited = s.unlimited := by
  have hviews : (s.views.map View.unlimited View.named_unlimited).map View.unlimited
      View.named_unlimited = s.views.map View.unlimited View.named_unlimited := by
    apply Directory.ext
    show (s.views.items.map View.unlimited).map View.unlimited = _
    rw [List.map_map]
    rfl
  unfold unlimited
  rw [hviews]

/-- No limit has an effect on the operators and results of a statement. -/
theorem compileRows_unlimited (s : Session) (statement : Statement) :
    s.unlimited.compileRows statement.unlimited = s.compileRows statement := by
  -- No table changes, so neither do the scans; the limits go all the same.
  have herase := compileRows_erase (s := s) .keep .indexScan (fun t _ => Erasure.fitsTable_keep t)
    statement
  rw [erase_keep] at herase
  rw [herase]
  have hid : (fun p : Operator × List ResultColumn => (p.1.mapScans .indexScan, p.2)) = id := by
    funext p
    rw [Operator.mapScans_indexScan]
    rfl
  rw [hid, id_map]

theorem compileRows_congr {s s' : Session} {statement statement' : Statement}
    (hs : s.unlimited = s'.unlimited) (h : statement.unlimited = statement'.unlimited) :
    s.compileRows statement = s'.compileRows statement' := by
  rw [← compileRows_unlimited, hs, h, compileRows_unlimited]

/-- The outcome of a statement is that of another one that is carried out alike, if it is limited in
the same way. -/
theorem compile_congr {s s' : Session} {statement statement' : Statement}
    (hrows : s.compileRows statement = s'.compileRows statement')
    (hcategory : statement.category = statement'.category)
    (hcount : statement.parameterCount = statement'.parameterCount)
    (htext : statement.text = statement'.text) (hints : List (Option DataType)) :
    s.compile statement hints =
      (s'.compile statement' hints).map (.limited statement.offset statement.limit) := by
  have hfixed : statement.fixedOutcome? = statement'.fixedOutcome? := by
    unfold Statement.fixedOutcome?
    rw [hcategory, hcount, htext]
  rw [compile_eq, compile_eq, hfixed, hrows]
  unfold startSlots
  rw [hcount]
  cases h : statement'.fixedOutcome? with
  | some outcome => rcases Statement.fixedOutcome?_cases h with rfl | rfl | rfl <;> rfl
  | none =>
      show Except.map _ _ = Except.map _ (Except.map _ _)
      cases (s'.compileRows statement').runOn (.ofHints statement'.parameterCount hints) with
      | error e => rfl
      | ok rows =>
          show Except.ok (Outcome.plan (statement.plan rows)) = Except.ok (Outcome.plan _)
          unfold Statement.plan
          rw [htext]

/-- Two statements that are carried out alike and limited alike have one outcome. -/
theorem compile_eq_of_rows {s s' : Session} {statement statement' : Statement}
    (hrows : s.compileRows statement = s'.compileRows statement')
    (hcategory : statement.category = statement'.category)
    (hcount : statement.parameterCount = statement'.parameterCount)
    (htext : statement.text = statement'.text) (hoffset : statement.offset = statement'.offset)
    (hlimit : statement.limit = statement'.limit) (hints : List (Option DataType)) :
    s.compile statement hints = s'.compile statement' hints := by
  rw [compile_congr hrows hcategory hcount htext, hoffset, hlimit]
  exact (compile_congr (s := s') rfl rfl rfl rfl hints).symm

/-- The limits of a selection are those of its plan and have no other effect.  The limits of a query
that an insertion takes its rows from, and those of views, have no effect at all. -/
theorem compile_limits (s : Session) (statement : Statement) (hints : List (Option DataType)) :
    (∀ q : Select, s.compile (.select q) hints =
        (s.compile (.select q.unlimited) hints).map (.limited q.offset q.limit)) ∧
      (∀ table columns q, s.compile (.insert table columns (.select q)) hints =
        s.compile (.insert table columns (.select q.unlimited)) hints) ∧
      s.compile statement hints = s.unlimited.compile statement hints := by
  refine ⟨fun q => ?_, fun table columns q => ?_, ?_⟩
  · have hrows : s.compileRows (.select q) = s.compileRows (.select q.unlimited) :=
      compileRows_congr rfl rfl
    exact compile_congr hrows rfl rfl rfl hints
  · have hrows : s.compileRows (.insert table columns (.select q)) =
        s.compileRows (.insert table columns (.select q.unlimited)) := compileRows_congr rfl rfl
    -- The plan of an insertion has no limits of its own.
    have hself := compile_congr (s := s) (rfl : s.compileRows
      (.insert table columns (.select q.unlimited)) = _) rfl rfl rfl hints
    rw [compile_congr hrows rfl rfl rfl hints]
    exact hself.symm
  · have hself := compile_congr (s := s.unlimited)
      (rfl : s.unlimited.compileRows statement = _) rfl rfl rfl hints
    rw [compile_congr (compileRows_congr s.unlimited_unlimited.symm rfl) rfl rfl rfl hints]
    exact hself.symm

end Session

end QueryPlanner
