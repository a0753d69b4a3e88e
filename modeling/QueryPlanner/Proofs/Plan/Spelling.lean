import Mathlib.Data.List.Find
import QueryPlanner.Proofs.Binding.Spelling
import QueryPlanner.Proofs.Plan.Access
import QueryPlanner.Proofs.Plan.Placeholders

/-!
# Spellings of names in statements

Statements on rows that differ only in the case of ASCII letters in the names of schemas, tables,
views and columns have plans with the same operators, results and placeholders, or are refused with
the same code.  Aliases belong to a statement and are kept as they are, and so are the names of
results; a result without alias must be a column, or have the name that the parser gave it, for its
name is the text of its expression otherwise.

Main statement: `compile_spelling`.
-/

namespace QueryPlanner

/-! ## Steps of typing -/

namespace Typing

variable {α β : Type} {t u : Typing α} {f g : α → Typing β}

/-- From all slots, two computations give the same, or are refused with the same code. -/
def SameCode (t u : Typing α) : Prop :=
  ∀ slots, QueryPlanner.SameCode (t.runOn slots) (u.runOn slots)

namespace SameCode

theorem refl (t : Typing α) : SameCode t t := fun _ => .refl _

theorem bind (ht : SameCode t u) (hf : ∀ a, SameCode (f a) (g a)) :
    SameCode (t >>= f) (u >>= g) := by
  intro slots
  rw [runOn_bind, runOn_bind]
  exact (ht slots).bind fun a _ => hf a.1 a.2

theorem ofExcept {x y : Except PlanError α} (h : QueryPlanner.SameCode x y) :
    SameCode (ofExcept x) (ofExcept y) := by
  intro slots
  rw [runOn_ofExcept, runOn_ofExcept]
  exact h.map _

theorem mapM {ι : Type} {l : List ι} {k : ι → ι} {f g : ι → Typing α}
    (h : ∀ i ∈ l, SameCode (f i) (g (k i))) : SameCode (l.mapM f) ((l.map k).mapM g) := by
  induction l with
  | nil => exact .refl _
  | cons i l ih =>
      rw [List.forall_mem_cons] at h
      rw [List.map_cons, List.mapM_cons, List.mapM_cons]
      exact h.1.bind fun _ => (ih h.2).bind fun _ => .refl _

end SameCode

end Typing

/-! ## Names made small -/

/-- What is inserted, with the names in it made small. -/
def InsertSource.folded : InsertSource → InsertSource
  | .values rows => .values (rows.map fun row => row.map Expr.folded)
  | .select q => .select q.folded

/-- The assignment with the names in it made small. -/
def Assignment.folded (a : Assignment) : Assignment :=
  { column := Text.folded a.column, value := a.value.folded }

namespace Statement

/-- The statement with the names in it made small, if it is a statement on rows. -/
def folded : Statement → Statement
  | .select q => .select q.folded
  | .insert table columns source =>
      .insert table.folded (columns.map Text.folded) source.folded
  | .update table assignments predicate =>
      .update table.folded (assignments.map Assignment.folded) (predicate.map Expr.folded)
  | .delete table predicate => .delete table.folded (predicate.map Expr.folded)
  | statement => statement

/-- No name of a result is read off the text of its expression. -/
def NamesResults : Statement → Prop
  | .select q | .insert _ _ (.select q) => q.NamesResults
  | _ => True

theorem namesResults_folded {statement : Statement} :
    statement.folded.NamesResults ↔ statement.NamesResults := by
  cases statement with
  | select q => exact Select.namesResults_folded
  | insert table columns source =>
      cases source with
      | values rows => exact Iff.rfl
      | select q => exact Select.namesResults_folded
  | _ => exact Iff.rfl

theorem category_folded (statement : Statement) :
    statement.folded.category = statement.category := by
  cases statement <;> rfl

theorem offset_folded (statement : Statement) : statement.folded.offset = statement.offset := by
  cases statement <;> rfl

theorem limit_folded (statement : Statement) : statement.folded.limit = statement.limit := by
  cases statement <;> rfl

end Statement

/-! ## Placeholders -/

namespace Expr

mutual

theorem parameters_folded : ∀ e : Expr, e.folded.parameters = e.parameters
  | .column .. => rfl
  | .literal _ => rfl
  | .parameter _ => rfl
  | .binary _ left right => by
      rw [folded, parameters, parameters, parameters_folded left, parameters_folded right]
  | .not operand => parameters_folded operand
  | .isNull operand _ => parameters_folded operand
  | .between operand low high _ => by
      rw [folded, parameters, parameters, parameters_folded operand, parameters_folded low,
        parameters_folded high]
  | .row items => parametersItems_folded items

theorem parametersItems_folded :
    ∀ items : List Expr, parametersItems (foldedItems items) = parametersItems items
  | [] => rfl
  | item :: rest => by
      rw [foldedItems, parametersItems, parametersItems, parameters_folded item,
        parametersItems_folded rest]

end

theorem flatMap_parameters_folded (exprs : List Expr) :
    (exprs.map folded).flatMap parameters = exprs.flatMap parameters := by
  rw [List.flatMap_map]
  exact congrArg (List.flatMap · exprs) (funext parameters_folded)

end Expr

theorem Select.exprs_folded (q : Select) : q.folded.exprs = q.exprs.map Expr.folded := by
  have hitem (item : SelectItem) : item.folded.exprs = item.exprs.map Expr.folded := by
    cases item <;> rfl
  have hitems : q.folded.items.flatMap SelectItem.exprs =
      (q.items.flatMap SelectItem.exprs).map Expr.folded := by
    unfold folded
    rw [List.flatMap_map, List.map_flatMap]
    exact congrArg (List.flatMap · q.items) (funext hitem)
  rw [exprs_eq, exprs_eq, hitems, List.map_append, List.map_append]
  simp [folded, OrderItem.folded, Option.toList_map, Function.comp_def]

namespace Statement

/-- A statement on rows has the expressions with the names in them made small. -/
theorem exprs_folded {statement : Statement} (h : statement.category = .manipulation) :
    statement.folded.exprs = statement.exprs.map Expr.folded := by
  cases statement with
  | select q => exact q.exprs_folded
  | insert table columns source =>
      cases source with
      | values rows => exact List.map_flatten.symm
      | select q => exact q.exprs_folded
  | update table assignments predicate =>
      simp [folded, exprs, Assignment.folded, Option.toList_map, Function.comp_def]
  | delete table predicate => exact Option.toList_map
  | _ => cases h

theorem parameterCount_folded {statement : Statement} (h : statement.category = .manipulation) :
    statement.folded.parameterCount = statement.parameterCount := by
  unfold parameterCount QueryPlanner.parameterCount
  rw [exprs_folded h, Expr.flatMap_parameters_folded]

end Statement

/-! ## Changes of rows -/

namespace Table

variable (t : Table)

theorem sameCode_target (name : String) :
    SameCode (t.target name) (t.target (Text.folded name)) := by
  have hcolumn : t.column? (Text.folded name) = t.column? name := by
    unfold column?
    simp only [Text.sameLetters_folded]
  unfold target
  rw [hcolumn]
  split
  next => exact .refl _
  next => exact .error rfl

theorem sameCode_targets (before : List TargetColumn) (names : List String) :
    SameCode (t.targets before names) (t.targets before (names.map Text.folded)) := by
  induction names generalizing before with
  | nil => exact .refl _
  | cons name rest ih =>
      refine (t.sameCode_target name).bind fun target _ => ?_
      dsimp only
      split
      · exact .refl _
      · exact ih _

theorem sameCode_insertTargets (columns : List String) :
    SameCode (t.insertTargets columns) (t.insertTargets (columns.map Text.folded)) := by
  cases columns with
  | nil => exact .refl _
  | cons name rest => exact t.sameCode_targets [] (name :: rest)

theorem sameCode_filteredAccess (scope : Scope) (predicate : Option Expr) :
    Typing.SameCode (t.filteredAccess scope predicate)
      (t.filteredAccess scope (predicate.map Expr.folded)) := by
  cases predicate with
  | none => exact .refl _
  | some e => exact (Typing.SameCode.ofExcept (scope.sameCode_bindExpr e)).bind fun _ => .refl _

theorem sameCode_valueRow (targets : List TargetColumn) (row : List Expr) :
    Typing.SameCode (t.valueRow targets row) (t.valueRow targets (row.map Expr.folded)) := by
  unfold valueRow
  rw [List.length_map, List.zip_map_right]
  refine Typing.SameCode.bind (.refl _) fun _ => Typing.SameCode.mapM fun (target, e) _ => ?_
  exact (Typing.SameCode.ofExcept (Scope.sameCode_bindExpr [] e)).bind fun _ => .refl _

end Table

namespace Session

variable (s : Session)

theorem sameCode_compileSelect {q : Select} (h : q.NamesResults) :
    Typing.SameCode (s.compileSelect q) (s.compileSelect q.folded) :=
  (Typing.SameCode.ofExcept (s.sameCode_bindSelect h)).bind fun _ => .refl _

theorem sameCode_compileInsertSource (t : Table) (targets : List TargetColumn)
    {table : ObjectName} {columns : List String} {source : InsertSource}
    (h : (Statement.insert table columns source).NamesResults) :
    Typing.SameCode (s.compileInsertSource t targets source)
      (s.compileInsertSource t targets source.folded) := by
  cases source with
  | values rows =>
      exact (Typing.SameCode.mapM fun row _ => t.sameCode_valueRow targets row).bind
        fun _ => .refl _
  | select q => exact (s.sameCode_compileSelect h).bind fun _ => .refl _

theorem sameCode_compileAssignment (t : Table) (scope : Scope) (a : Assignment) :
    Typing.SameCode (compileAssignment t scope a) (compileAssignment t scope a.folded) :=
  (Typing.SameCode.ofExcept (t.sameCode_target a.column)).bind fun _ =>
    (Typing.SameCode.ofExcept (scope.sameCode_bindExpr a.value)).bind fun _ => .refl _

/-- The rows of a statement on rows are the same in all spellings, or it is refused with the same
code. -/
theorem sameCode_compileRows {statement : Statement} (h : statement.NamesResults) :
    Typing.SameCode (s.compileRows statement) (s.compileRows statement.folded) := by
  cases statement with
  | select q => exact s.sameCode_compileSelect h
  | insert table columns source =>
      refine Typing.SameCode.bind ?_ fun _ => .refl _
      rw [compileInsert_eq, compileInsert_eq]
      refine (Typing.SameCode.ofExcept (s.sameCode_bindTable table)).bind fun t => ?_
      refine (Typing.SameCode.ofExcept (t.sameCode_insertTargets columns)).bind fun targets => ?_
      exact (s.sameCode_compileInsertSource t targets h).bind fun _ => .refl _
  | update table assignments predicate =>
      refine Typing.SameCode.bind ?_ fun _ => .refl _
      refine (Typing.SameCode.ofExcept (s.sameCode_bindTable table)).bind fun t => ?_
      have hassignments := Typing.SameCode.mapM (l := assignments) fun a _ =>
        sameCode_compileAssignment t [.ofTable t none] a
      refine hassignments.bind fun bound => ?_
      exact (t.sameCode_filteredAccess _ predicate).bind fun _ => .refl _
  | delete table predicate =>
      refine Typing.SameCode.bind ?_ fun _ => .refl _
      refine (Typing.SameCode.ofExcept (s.sameCode_bindTable table)).bind fun t => ?_
      exact (t.sameCode_filteredAccess _ predicate).bind fun _ => .refl _
  | _ => exact .refl _

end Session

/-! ## Outcomes -/

/-- Two plans are the same but for the text of their statements. -/
structure Plan.SameButText (p q : Plan) : Prop where
  root : p.root = q.root
  results : p.results = q.results
  parameters : p.parameters = q.parameters
  offset : p.offset = q.offset
  limit : p.limit = q.limit

/-- Two compilations are refused with the same code, or give the same plan but for the text of the
statement. -/
inductive SameButText : Except PlanError Outcome → Except PlanError Outcome → Prop where
  | refused {e e' : PlanError} (code : e.code = e'.code) : SameButText (.error e) (.error e')
  | planned {p q : Plan} (same : p.SameButText q) :
      SameButText (.ok (.plan p)) (.ok (.plan q))

/-- What is made of the same rows is the same but for the text of the statement. -/
theorem SameCode.sameButText {x y : Except PlanError ((Operator × List ResultColumn) × Slots)}
    (h : SameCode x y) {a b : Statement} (hoffset : a.offset = b.offset)
    (hlimit : a.limit = b.limit) :
    SameButText (x.map fun rows => .plan (a.plan rows))
      (y.map fun rows => .plan (b.plan rows)) := by
  cases x with
  | error e =>
      cases y with
      | error e' => exact .refused (Except.error.inj h)
      | ok rows => cases h
  | ok rows =>
      cases y with
      | error e => cases h
      | ok rows' =>
          obtain rfl : rows = rows' := Except.ok.inj h
          exact .planned ⟨rfl, rfl, rfl, hoffset, hlimit⟩

namespace Session

/-- Statements on rows that differ only in the case of ASCII letters in names have the same plan, or
are refused with the same code. -/
theorem compile_spelling (s : Session) {a b : Statement} (hcategory : a.category = .manipulation)
    (hnames : a.NamesResults) (h : a.folded = b.folded) (hints : List (Option DataType)) :
    SameButText (s.compile a hints) (s.compile b hints) := by
  have hcategory' : b.category = .manipulation := by
    rw [← b.category_folded, ← h, a.category_folded, hcategory]
  have hnames' : b.NamesResults := by
    rw [← Statement.namesResults_folded, ← h, Statement.namesResults_folded]
    exact hnames
  have hcount : a.parameterCount = b.parameterCount := by
    rw [← Statement.parameterCount_folded hcategory, h, Statement.parameterCount_folded hcategory']
  have hrows : Typing.SameCode (s.compileRows a) (s.compileRows b) := by
    intro slots
    have ha := s.sameCode_compileRows hnames slots
    rw [h] at ha
    exact ha.trans (s.sameCode_compileRows hnames' slots).symm
  have hoffset : a.offset = b.offset := by rw [← a.offset_folded, h, b.offset_folded]
  have hlimit : a.limit = b.limit := by rw [← a.limit_folded, h, b.limit_folded]
  have hslots : startSlots a hints = startSlots b hints := congrArg (Slots.ofHints · hints) hcount
  rw [compile_eq, compile_eq, Statement.fixedOutcome?, Statement.fixedOutcome?, hcategory,
    hcategory', hcount, hslots]
  dsimp only
  split
  · exact .refused rfl
  · exact (hrows _).sameButText hoffset hlimit

end Session

/-- The query `SELECT points.y FROM main.points WHERE x = 1`, given how its names are spelled. -/
def spelledQuery (schema table x y : String) : Select :=
  { items := [.expr (.column (some table) y) none none]
    sources := [{ name := { schema := some schema, name := table } }]
    predicate := some (.binary .eq (.column none x) (.literal (.integer 1))) }

theorem folded_spelledQuery (schema table x y : String) :
    (spelledQuery schema table x y).folded =
      spelledQuery (Text.folded schema) (Text.folded table) (Text.folded x) (Text.folded y) := rfl

theorem compile_spelling_pointCatalog :
    (spelledQuery "main" "points" "x" "y").NamesResults ∧
      (spelledQuery "main" "points" "x" "y").folded =
        (spelledQuery "Main" "POINTS" "X" "y").folded ∧
      SameButText
        (Session.compile { catalog := pointCatalog, defaultSchema := "main" }
          (.select (spelledQuery "main" "points" "x" "y")) [])
        (Session.compile { catalog := pointCatalog, defaultSchema := "main" }
          (.select (spelledQuery "Main" "POINTS" "X" "y")) []) := by
  have hnames : (spelledQuery "main" "points" "x" "y").NamesResults :=
    List.forall_mem_singleton.2 (.inr (.inr rfl))
  have hsame : (spelledQuery "main" "points" "x" "y").folded =
      (spelledQuery "Main" "POINTS" "X" "y").folded := by
    rw [folded_spelledQuery, folded_spelledQuery]
    simp [Text.folded, Text.asciiFold]
  have hstatements : (Statement.select (spelledQuery "main" "points" "x" "y")).folded =
      (Statement.select (spelledQuery "Main" "POINTS" "X" "y")).folded :=
    congrArg Statement.select hsame
  have hcategory : (Statement.select (spelledQuery "main" "points" "x" "y")).category =
      .manipulation := rfl
  exact ⟨hnames, hsame, Session.compile_spelling _ hcategory hnames hstatements []⟩

end QueryPlanner
