import QueryPlanner.Proofs.Binding.Expansion

/-!
# What binding does not look at

Of a table, binding a query looks at the name and the columns only, and it hands on how many rows a
query skips and returns without looking at it.  A session whose tables are changed otherwise, and
whose views have lost their limits, therefore gives the same bound query up to these changes.

Main statement: `bindSelect_erase`.
-/

namespace QueryPlanner

/-! ## Queries without limits -/

/-- The query that skips no rows and returns all of them. -/
def Select.unlimited (q : Select) : Select := { q with offset := none, limit := none }

def InsertSource.unlimited : InsertSource → InsertSource
  | .values rows => .values rows
  | .select query => .select query.unlimited

/-- The statement whose query, if it has one, is without limits. -/
def Statement.unlimited : Statement → Statement
  | .select query => .select query.unlimited
  | .insert table columns source => .insert table columns source.unlimited
  | other => other

/-- The view of the query without limits. -/
def View.unlimited (w : View) : View :=
  { w with query := w.query.unlimited, parameterFree := w.parameterFree }

/-! ## Changes of tables -/

/-- A change of tables that keeps what their queries see of them. -/
structure Erasure where
  table : Table → Table
  name_table : ∀ t, (table t).name = t.name
  columns_table : ∀ t, (table t).columns = t.columns

namespace Directory

variable {α : Type} [Named α]

/-- A directory whose things are changed without their names. -/
def map (f : α → α) (hf : ∀ a, Named.name (f a) = Named.name a) (d : Directory α) :
    Directory α :=
  ⟨d.items.map f, by
    rw [List.pairwise_map]
    simpa only [Named.key, hf] using d.sorted⟩

theorem find?_map (f : α → α) (hf : ∀ a, Named.name (f a) = Named.name a) (d : Directory α)
    (name : String) : (d.map f hf).find? name = (d.find? name).map f := by
  unfold find? map
  rw [List.find?_map]
  congr 2
  funext a
  show (Text.lowercase (Named.name (f a)) == _) = _
  rw [hf]
  rfl

theorem contains_map (f : α → α) (hf : ∀ a, Named.name (f a) = Named.name a)
    (d : Directory α) (name : String) : (d.map f hf).contains name = d.contains name := by
  unfold contains
  rw [find?_map, Option.isSome_map]

end Directory

variable (e : Erasure)

theorem Erasure.named_table (t : Table) : Named.name (e.table t) = Named.name t :=
  congrArg TableName.table (e.name_table t)

/-- The schema with changed tables. -/
def Schema.erase (schema : Schema) : Schema :=
  { schema with tables := schema.tables.map e.table e.named_table }

theorem Schema.name_erase (schema : Schema) :
    Named.name (schema.erase e) = Named.name schema := rfl

/-- The catalog with changed tables. -/
def Catalog.erase (c : Catalog) : Catalog := ⟨c.schemas.map (Schema.erase e) (Schema.name_erase e)⟩

theorem Catalog.hasSchema_erase (c : Catalog) (schema : String) :
    (c.erase e).hasSchema schema = c.hasSchema schema :=
  Directory.contains_map _ (Schema.name_erase e) _ _

theorem Catalog.table?_erase (c : Catalog) (name : TableName) :
    (c.erase e).table? name = (c.table? name).map e.table := by
  unfold Catalog.table?
  show ((c.schemas.map _ (Schema.name_erase e)).find? name.schema).bind _ = _
  rw [Directory.find?_map]
  cases c.schemas.find? name.schema with
  | none => rfl
  | some schema => exact Directory.find?_map _ e.named_table _ _

theorem View.named_unlimited (w : View) : Named.name w.unlimited = Named.name w := rfl

/-- The session with changed tables and views without limits. -/
def Session.erase (s : Session) : Session :=
  { s with
    catalog := s.catalog.erase e
    views := s.views.map View.unlimited View.named_unlimited }

theorem Session.bindTable_erase (s : Session) (name : ObjectName) :
    (s.erase e).bindTable name = (s.bindTable name).map e.table := by
  unfold Session.bindTable
  simp only [Session.erase, Catalog.hasSchema_erase, Catalog.table?_erase]
  split
  · cases s.catalog.table? (name.qualify s.defaultSchema) <;> rfl
  · rfl

theorem Session.view?_erase (s : Session) (name : ObjectName) :
    (s.erase e).view? name = (s.view? name).map View.unlimited := by
  unfold Session.view?
  split
  · rfl
  · exact Directory.find?_map _ View.named_unlimited _ _

/-! ## Changes of bound queries -/

mutual

def SourceOrigin.erase : SourceOrigin → SourceOrigin
  | .table t => .table (e.table t)
  | .view name query => .view name query.erase

def BoundSource.erase : BoundSource → BoundSource
  | ⟨aliasName, origin, columns⟩ => ⟨aliasName, origin.erase, columns⟩

/-- The bound query with changed tables and without limits, also in the views it reads. -/
def BoundSelect.erase : BoundSelect → BoundSelect
  | ⟨sources, results, predicate, order, _, _⟩ =>
      ⟨eraseSources sources, results, predicate, order, none, none⟩

def eraseSources : List BoundSource → List BoundSource
  | [] => []
  | source :: rest => source.erase :: eraseSources rest

end

theorem eraseSources_eq_map (sources : List BoundSource) :
    eraseSources e sources = sources.map (BoundSource.erase e) := by
  induction sources with
  | nil => rfl
  | cons source rest ih => rw [eraseSources, ih, List.map_cons]

@[simp] theorem BoundSource.aliasName_erase (s : BoundSource) :
    (s.erase e).aliasName = s.aliasName := by
  cases s
  rfl

theorem BoundSource.ofTable_erase (t : Table) (aliasName : Option String) :
    (BoundSource.ofTable t aliasName).erase e = .ofTable (e.table t) aliasName := by
  unfold BoundSource.ofTable BoundSource.erase
  rw [e.name_table, e.columns_table, SourceOrigin.erase]

/-! ## Expressions -/

namespace Scope

/-- The scope of changed sources. -/
abbrev erase (scope : Scope) : Scope := scope.map (BoundSource.erase e)

theorem source?_erase (scope : Scope) (name : String) :
    (erase e scope).source? name =
      (scope.source? name).map fun (s, number) => (s.erase e, number) := by
  unfold source? erase
  rw [List.zipIdx_map, List.find?_map]
  congr 2
  funext s
  simp

theorem find?_erase (s : BoundSource) (number : Nat) (name : String) :
    (s.erase e).find? number name = s.find? number name := by
  cases s
  rfl

theorem references_source_erase (s : BoundSource) (number : Nat) :
    (s.erase e).references number = s.references number := by
  cases s
  rfl

theorem candidates_erase (scope : Scope) (name : String) :
    (erase e scope).candidates name = scope.candidates name := by
  unfold candidates erase
  rw [List.zipIdx_map, List.filterMap_map]
  congr 1
  funext s
  exact find?_erase e s.1 s.2 name

theorem references_erase (scope : Scope) : (erase e scope).references = scope.references := by
  unfold references erase
  rw [List.zipIdx_map, List.flatMap_map]
  congr 1
  funext s
  exact references_source_erase e s.1 s.2

theorem resolve_erase (scope : Scope) : (erase e scope).resolve = scope.resolve := by
  funext qualifier name
  unfold resolve
  rw [candidates_erase]
  cases qualifier with
  | none => rfl
  | some qualifier =>
      dsimp only
      rw [source?_erase]
      cases scope.source? qualifier with
      | none => rfl
      | some s =>
          dsimp only [Option.map_some]
          rw [find?_erase]

mutual

/-- Expressions are bound alike where references mean the same columns. -/
theorem bindExpr_congr {scope other : Scope} (h : scope.resolve = other.resolve) :
    ∀ expr, scope.bindExpr expr = other.bindExpr expr
  | .column table name => by rw [bindExpr, bindExpr, h]
  | .literal value => rfl
  | .parameter index => rfl
  | .binary op left right => by
      rw [bindExpr, bindExpr, bindExpr_congr h left, bindExpr_congr h right]
  | .not operand => by rw [bindExpr, bindExpr, bindExpr_congr h operand]
  | .isNull operand negated => by rw [bindExpr, bindExpr, bindExpr_congr h operand]
  | .between operand low high negated => by
      rw [bindExpr, bindExpr, bindExpr_congr h operand, bindExpr_congr h low, bindExpr_congr h high]
  | .row items => by rw [bindExpr, bindExpr, bindExprs_congr h items]

theorem bindExprs_congr {scope other : Scope} (h : scope.resolve = other.resolve) :
    ∀ items, scope.bindExprs items = other.bindExprs items
  | [] => rfl
  | item :: rest => by
      rw [bindExprs, bindExprs, bindExpr_congr h item, bindExprs_congr h rest]

end

theorem bindExpr_erase (scope : Scope) : (erase e scope).bindExpr = scope.bindExpr :=
  funext (bindExpr_congr (resolve_erase e scope))

theorem bindItem_erase (scope : Scope) : (erase e scope).bindItem = scope.bindItem := by
  funext item
  cases item with
  | wildcard =>
      unfold bindItem
      rw [references_erase, List.isEmpty_map]
  | qualifiedWildcard table =>
      unfold bindItem
      dsimp only
      rw [source?_erase]
      cases scope.source? table with
      | none => rfl
      | some s =>
          dsimp only [Option.map_some]
          rw [references_source_erase]
  | expr expr aliasName defaultName =>
      unfold bindItem
      rw [bindExpr_erase]

theorem bindOrderItem_erase (scope : Scope) :
    (erase e scope).bindOrderItem = scope.bindOrderItem := by
  funext item
  unfold bindOrderItem
  rw [bindExpr_erase]

end Scope

/-! ## Queries -/

namespace Select

section

variable {bindSource bindSource' : TableRef → Except PlanError BoundSource}

theorem bindSources_erase (h : ∀ r, bindSource' r = (bindSource r).map (BoundSource.erase e))
    (before : Scope) (refs : List TableRef) :
    bindSources bindSource' (Scope.erase e before) refs =
      (bindSources bindSource before refs).map (Scope.erase e) := by
  induction refs generalizing before with
  | nil => rfl
  | cons r rest ih =>
      unfold bindSources
      rw [h]
      cases bindSource r with
      | error error => rfl
      | ok source =>
          -- Whether the name of the source is taken is seen from the names before it.
          have hany : ((Scope.erase e before).any fun s =>
              Text.sameLetters s.aliasName (source.erase e).aliasName) =
              before.any fun s => Text.sameLetters s.aliasName source.aliasName := by
            simp [Scope.erase, Function.comp_def]
          have hrest := ih (before ++ [source])
          rw [Scope.erase, List.map_append, List.map_singleton] at hrest
          show (if ((Scope.erase e before).any fun s =>
            Text.sameLetters s.aliasName (source.erase e).aliasName) = true then _ else _) = _
          rw [hany]
          show _ = Except.map (Scope.erase e) (if (before.any fun s =>
            Text.sameLetters s.aliasName source.aliasName) = true then _ else _)
          split
          · rw [BoundSource.aliasName_erase]
            rfl
          · exact hrest

theorem bindWith_erase (h : ∀ r, bindSource' r = (bindSource r).map (BoundSource.erase e))
    (q : Select) : q.unlimited.bindWith bindSource' =
      (q.bindWith bindSource).map (BoundSelect.erase e) := by
  unfold bindWith
  have hsources := bindSources_erase e h [] q.sources
  show (bindSources bindSource' [] q.sources >>= _) = _
  rw [show bindSources bindSource' [] q.sources = _ from hsources]
  cases bindSources bindSource [] q.sources with
  | error error => rfl
  | ok scope =>
      simp only [Except.map, bind, Except.bind, unlimited]
      -- Expressions are bound alike in both scopes; only the sources differ in the end.
      rw [Scope.bindItem_erase, Scope.bindExpr_erase, Scope.bindOrderItem_erase]
      cases q.items.mapM scope.bindItem with
      | error error => rfl
      | ok results =>
          cases q.predicate.mapM scope.bindExpr with
          | error error => rfl
          | ok predicate =>
              cases q.order.mapM scope.bindOrderItem with
              | error error => rfl
              | ok order =>
                  show Except.ok _ = Except.ok _
                  rw [BoundSelect.erase, eraseSources_eq_map]

end

end Select

theorem BoundSelect.results_erase (q : BoundSelect) : (q.erase e).results = q.results := by
  cases q
  rfl

theorem View.source_erase (w : View) (aliasName : Option String) (q : BoundSelect) :
    w.unlimited.source aliasName (q.erase e) =
      (w.source aliasName q).map (BoundSource.erase e) := by
  unfold View.source
  simp only [View.unlimited, BoundSelect.results_erase]
  -- The width of the view is that of its results, which are kept.
  by_cases hwidth : (!w.columns.isEmpty && w.columns.length != q.results.length) = true
  · rw [if_pos hwidth, if_pos hwidth]
    rfl
  · rw [if_neg hwidth, if_neg hwidth]
    cases resultTypes q.results <;> rfl

namespace Session

/-- A reference stands for what it stood for, with the changes. -/
theorem bindSource_erase (s : Session) (expanding : List String) (r : TableRef) :
    (s.erase e).bindSource expanding r =
      (s.bindSource expanding r).map (BoundSource.erase e) := by
  induction expanding using s.expansion_induction generalizing r with
  | inside expanding ih =>
      have hview := s.view?_erase e r.name
      cases h : s.view? r.name with
      | none =>
          rw [h] at hview
          rw [bindSource_of_table h, bindSource_of_table hview, bindTable_erase]
          cases s.bindTable r.name with
          | error error => rfl
          | ok t => exact congrArg Except.ok (BoundSource.ofTable_erase e t r.aliasName).symm
      | some w =>
          rw [h] at hview
          by_cases hkey : Named.key w ∈ expanding
          · rw [bindSource_of_expanding h hkey, bindSource_of_expanding hview hkey]
            rfl
          · rw [bindSource_of_view h hkey, bindSource_of_view hview hkey]
            have hquery := Select.bindWith_erase e (ih w (mem_views_of_view? h) hkey) w.query
            show (w.query.unlimited.bindWith ((s.erase e).bindSource (Named.key w :: expanding)) >>=
              w.unlimited.source r.aliasName) = _
            rw [hquery]
            cases w.query.bindWith (s.bindSource (Named.key w :: expanding)) with
            | error error => rfl
            | ok q => exact View.source_erase e w r.aliasName q

/-- A session with changed tables and views without limits binds a query to what it was, with these
changes. -/
theorem bindSelect_erase (s : Session) (q : Select) :
    (s.erase e).bindSelect q.unlimited = (s.bindSelect q).map (BoundSelect.erase e) :=
  Select.bindWith_erase e (bindSource_erase e s []) q

end Session

end QueryPlanner
