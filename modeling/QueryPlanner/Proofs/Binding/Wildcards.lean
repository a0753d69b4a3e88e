import QueryPlanner.Proofs.Binding.OwnNames

/-!
# Wildcards written out

A wildcard in a select list stands for columns of the sources.  It finds them by their places, while
a column that is written out, with the name of its source in front, is found by these two names.  The
two ways agree where no source shows two columns of one name: no two sources go by one name anyway,
so the names of a source and of its column lead to the one place that both are read off
(`resolve_reference`).

A select list in which wildcards are written out therefore has the same results, under the same
names, and is refused with the same error if other entries are (`bindItems_of_spellsOut`).  Only
without sources a wildcard stands for nothing and is refused itself.

Main statement: `bindSelect_spellsOut`.
-/

namespace QueryPlanner

/-- The one thing that goes by a name is found with its place, if no two go by one name. -/
theorem find?_zipIdx {α : Type} {name : α → String} {l : List α}
    (h : l.Pairwise fun a b => Text.sameLetters (name a) (name b) = false) {a : α} {i : Nat}
    (ha : l[i]? = some a) {n : String} (hn : Text.sameLetters (name a) n = true) :
    (l.zipIdx.find? fun b => Text.sameLetters (name b.1) n) = some (a, i) := by
  obtain ⟨hi, rfl⟩ := List.getElem?_eq_some_iff.1 ha
  rw [List.find?_eq_some_iff_getElem]
  refine ⟨hn, i, by simpa using hi, by simp, fun j hj => ?_⟩
  -- An earlier one that goes by the name would go by the name of this one.
  have hother := List.pairwise_iff_getElem.1 h j i (by omega) hi hj
  simp only [List.getElem_zipIdx, Bool.not_eq_true', Nat.zero_add]
  refine eq_false_of_ne_true fun hsame => ?_
  rw [Text.sameLetters_trans hsame (Text.sameLetters_symm hn)] at hother
  cases hother

/-- No two columns that a source shows have one name. -/
def BoundSource.DistinctColumns (s : BoundSource) : Prop :=
  s.columns.Pairwise fun a b => Text.sameLetters a.name b.name = false

namespace SelectItem

/-- Whether an entry writes a column out: the name of its source, its own name, and no alias. -/
def Writes (c : BoundColumn) (item : SelectItem) : Prop :=
  ∃ defaultName, item = .expr (.column (some c.qualifier) c.name) none defaultName

/-- Entries that an entry may be replaced with.  A wildcard may be replaced with the columns that it
stands for, written out in their order; every entry may be kept. -/
inductive SpelledOut (scope : Scope) : SelectItem → List SelectItem → Prop where
  | kept (item : SelectItem) : SpelledOut scope item [item]
  | all {items : List SelectItem} (nonempty : scope ≠ [])
      (columns : List.Forall₂ Writes scope.references items) :
      SpelledOut scope .wildcard items
  | source {table : String} {s : BoundSource} {number : Nat} {items : List SelectItem}
      (place : scope[number]? = some s) (named : Text.sameLetters s.aliasName table = true)
      (columns : List.Forall₂ Writes (s.references number) items) :
      SpelledOut scope (.qualifiedWildcard table) items

end SelectItem

namespace Scope

/-- A select list with some of its wildcards written out. -/
inductive SpellsOut (scope : Scope) : List SelectItem → List SelectItem → Prop where
  | nil : SpellsOut scope [] []
  | cons {item : SelectItem} {part items items' : List SelectItem}
      (first : item.SpelledOut scope part) (rest : SpellsOut scope items items') :
      SpellsOut scope (item :: items) (part ++ items')

/-- The results of a select list. -/
def bindItems (scope : Scope) (items : List SelectItem) : Except PlanError (List ResultItem) :=
  (items.mapM scope.bindItem).map List.flatten

variable {scope : Scope} {items items' : List SelectItem}

/-! ## References to columns -/

theorem source?_of_getElem? (h : scope.Distinct) {s : BoundSource} {number : Nat}
    (hs : scope[number]? = some s) {name : String}
    (hname : Text.sameLetters s.aliasName name = true) : scope.source? name = some (s, number) :=
  find?_zipIdx h hs hname

/-- A column is found under its own name and that of its source. -/
theorem resolve_reference (h : scope.Distinct) (hcolumns : ∀ s ∈ scope, s.DistinctColumns)
    {c : BoundColumn} (hc : c ∈ scope.references) :
    scope.resolve (some c.qualifier) c.name = .ok c := by
  obtain ⟨⟨s, number⟩, hs, hc⟩ := List.mem_flatMap.1 hc
  obtain ⟨column, hcolumn, hcs⟩ := BoundSource.mem_references_iff.1 hc
  have hget : scope[number]? = some s := List.mem_zipIdx_iff_getElem?.1 hs
  have hqualifier : c.qualifier = s.aliasName := congrArg BoundColumn.qualifier hcs
  have hname : c.name = column.name := congrArg BoundColumn.name hcs
  have hsource : scope.source? s.aliasName = some (s, number) :=
    source?_of_getElem? h hget (Text.sameLetters_refl _)
  have hfind : (s.columns.zipIdx.find? fun b => Text.sameLetters b.1.name column.name) =
      some (column, c.position) :=
    find?_zipIdx (hcolumns s (List.mem_of_getElem? hget)) hcolumn (Text.sameLetters_refl _)
  have hreference : s.find? number column.name = some c := by
    rw [hcs]
    exact congrArg (Option.map (s.reference number)) hfind
  rw [hqualifier, hname]
  simp only [resolve, hsource, hreference]

/-! ## Select lists -/

theorem bindItems_cons (item : SelectItem) (items : List SelectItem) :
    scope.bindItems (item :: items) = (do
      let first ← scope.bindItem item
      let rest ← scope.bindItems items
      return first ++ rest) := by
  unfold bindItems
  rw [List.mapM_cons]
  cases scope.bindItem item with
  | error e => rfl
  | ok first => cases items.mapM scope.bindItem <;> rfl

theorem bindItems_append (items items' : List SelectItem) :
    scope.bindItems (items ++ items') = (do
      let first ← scope.bindItems items
      let rest ← scope.bindItems items'
      return first ++ rest) := by
  induction items with
  | nil =>
      show scope.bindItems items' = scope.bindItems items' >>= fun rest => .ok rest
      cases scope.bindItems items' <;> rfl
  | cons item items ih =>
      rw [List.cons_append, bindItems_cons, bindItems_cons, ih]
      simp only [bind_assoc, pure_bind, List.append_assoc]

theorem bindItems_singleton (item : SelectItem) :
    scope.bindItems [item] = scope.bindItem item := by
  rw [bindItems_cons]
  show (scope.bindItem item >>= fun first => .ok (first ++ [])) = _
  cases scope.bindItem item with
  | error e => rfl
  | ok first => exact congrArg Except.ok (List.append_nil first)

/-- Columns that are written out are shown as a wildcard shows them. -/
theorem bindItems_of_writes {columns : List BoundColumn}
    (hitems : List.Forall₂ SelectItem.Writes columns items)
    (hcolumns : ∀ c ∈ columns, scope.resolve (some c.qualifier) c.name = .ok c) :
    scope.bindItems items = .ok (columns.map columnResult) := by
  induction hitems with
  | nil => rfl
  | @cons c item columns items hitem _ ih =>
      obtain ⟨defaultName, rfl⟩ := hitem
      obtain ⟨hc, hrest⟩ := List.forall_mem_cons.1 hcolumns
      rw [bindItems_cons, bindItem_column hc, ih hrest]
      rfl

theorem bindItems_of_spelledOut (h : scope.Distinct)
    (hcolumns : ∀ s ∈ scope, s.DistinctColumns) {item : SelectItem}
    (hitem : item.SpelledOut scope items) : scope.bindItems items = scope.bindItem item := by
  cases hitem with
  | kept => exact bindItems_singleton item
  | all nonempty columns =>
      rw [bindItems_of_writes columns fun c hc => resolve_reference h hcolumns hc, bindItem,
        if_neg (by simpa using nonempty)]
  | @source table s number _ place named columns =>
      have hmem : ∀ c ∈ s.references number, c ∈ scope.references := fun c hc =>
        List.mem_flatMap.2 ⟨(s, number), List.mem_zipIdx_iff_getElem?.2 place, hc⟩
      rw [bindItems_of_writes columns fun c hc => resolve_reference h hcolumns (hmem c hc)]
      simp only [bindItem, source?_of_getElem? h place named]

/-- Writing wildcards out keeps the results of a select list. -/
theorem bindItems_of_spellsOut (h : scope.Distinct)
    (hcolumns : ∀ s ∈ scope, s.DistinctColumns) (hitems : scope.SpellsOut items items') :
    scope.bindItems items' = scope.bindItems items := by
  induction hitems with
  | nil => rfl
  | cons first _ ih =>
      rw [bindItems_append, bindItems_cons, bindItems_of_spelledOut h hcolumns first, ih]

/-- Without sources a wildcard is refused, if no entry before it is. -/
theorem bindItems_wildcard (before after : List SelectItem) :
    bindItems [] (before ++ .wildcard :: after) =
      bindItems [] before >>= fun _ => .error (.invalidStatement .wildcardWithoutSource) := by
  rw [bindItems_append, bindItems_cons]
  rfl

end Scope

namespace Select

theorem bindIn_eq (scope : Scope) (q : Select) :
    q.bindIn scope = (do
      let results ← scope.bindItems q.items
      let predicate ← q.predicate.mapM scope.bindExpr
      let order ← q.order.mapM scope.bindOrderItem
      return {
        sources := scope
        results
        predicate
        order
        offset := q.offset
        limit := q.limit }) := by
  unfold bindIn Scope.bindItems
  cases q.items.mapM scope.bindItem <;> rfl

variable {bindSource : TableRef → Except PlanError BoundSource} {q : Select} {sources : Scope}

/-- A query with wildcards written out is bound to the same, or refused with the same error. -/
theorem bindWith_spellsOut (hsources : q.sources.mapM bindSource = .ok sources)
    (hcolumns : ∀ s ∈ sources, s.DistinctColumns) {items : List SelectItem}
    (hitems : sources.SpellsOut q.items items) :
    { q with items }.bindWith bindSource = q.bindWith bindSource := by
  rw [bindWith_eq, bindWith_eq]
  cases hscope : bindSources bindSource [] q.sources with
  | error e => rfl
  | ok scope =>
      have hdistinct : scope.Distinct := distinct_of_bindSources List.Pairwise.nil hscope
      obtain ⟨bound, hbound, hall⟩ := exists_of_bindSources hscope
      have hscope : scope = sources := by
        rw [hall, List.nil_append]
        exact Except.ok.inj (hbound.symm.trans hsources)
      subst hscope
      show { q with items }.bindIn scope = q.bindIn scope
      rw [bindIn_eq, bindIn_eq, Scope.bindItems_of_spellsOut hdistinct hcolumns hitems]

end Select

namespace Session

variable {s : Session} {q : Select} {sources : Scope}

theorem bindSelect_spellsOut (hsources : q.sources.mapM (s.bindSource []) = .ok sources)
    (hcolumns : ∀ s ∈ sources, s.DistinctColumns) {items : List SelectItem}
    (hitems : sources.SpellsOut q.items items) : s.bindSelect { q with items } = s.bindSelect q :=
  Select.bindWith_spellsOut hsources hcolumns hitems

/-- Without sources a query with a wildcard is refused. -/
theorem bindSelect_wildcard (hsources : q.sources = []) {before after : List SelectItem}
    (hitems : q.items = before ++ .wildcard :: after) :
    s.bindSelect q =
      Scope.bindItems [] before >>= fun _ => .error (.invalidStatement .wildcardWithoutSource) := by
  rw [bindSelect, Select.bindWith_eq, hsources]
  show q.bindIn [] = _
  rw [Select.bindIn_eq, hitems, Scope.bindItems_wildcard, bind_assoc]
  rfl

end Session

end QueryPlanner
