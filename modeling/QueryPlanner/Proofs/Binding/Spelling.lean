import QueryPlanner.Proofs.Binding.Expansion
import QueryPlanner.Proofs.Binding.Lookups
import QueryPlanner.Proofs.Text.Spelling

/-!
# Spellings of names in queries

Names are found whichever case their ASCII letters are in, and what is found carries its declared
name.  A query whose names are made small is therefore bound to the same, or refused with the same
code: only the wording of the error repeats the names as they were written.

Main statement: `sameCode_bindSelect`.
-/

namespace QueryPlanner

/-! ## The same but for the wording of errors -/

/-- Two computations give the same, or are refused with the same code. -/
def SameCode {α : Type} (x y : Except PlanError α) : Prop :=
  x.mapError PlanError.code = y.mapError PlanError.code

namespace SameCode

variable {α β γ : Type} {x y : Except PlanError α} {f g : α → Except PlanError β}

theorem refl (x : Except PlanError α) : SameCode x x := rfl

theorem error {e e' : PlanError} (h : e.code = e'.code) :
    SameCode (.error e : Except PlanError α) (.error e') := congrArg Except.error h

theorem bind (hx : SameCode x y) (hf : ∀ a, x = .ok a → SameCode (f a) (g a)) :
    SameCode (x >>= f) (y >>= g) := by
  cases x with
  | error e =>
      cases y with
      | error e' => exact error (Except.error.inj hx)
      | ok b => cases hx
  | ok a =>
      cases y with
      | error e' => cases hx
      | ok b =>
          obtain rfl : a = b := Except.ok.inj hx
          exact hf a rfl

theorem map (hx : SameCode x y) (k : α → γ) : SameCode (x.map k) (y.map k) := by
  have hmap (z : Except PlanError α) : z.map k = z >>= fun a => .ok (k a) := by
    cases z <;> rfl
  rw [hmap, hmap]
  exact hx.bind fun a _ => .refl _

/-- Lists of computations whose members are the same, one by one. -/
theorem mapM {ι : Type} {l : List ι} {k : ι → ι} {f g : ι → Except PlanError α}
    (h : ∀ i ∈ l, SameCode (f i) (g (k i))) : SameCode (l.mapM f) ((l.map k).mapM g) := by
  induction l with
  | nil => exact .refl _
  | cons i l ih =>
      rw [List.forall_mem_cons] at h
      rw [List.map_cons, List.mapM_cons, List.mapM_cons]
      exact h.1.bind fun _ _ => (ih h.2).bind fun _ _ => .refl _

theorem option_mapM {ι : Type} {o : Option ι} {k : ι → ι} {f g : ι → Except PlanError α}
    (h : ∀ i ∈ o, SameCode (f i) (g (k i))) : SameCode (o.mapM f) ((o.map k).mapM g) := by
  cases o with
  | none => exact .refl _
  | some i => exact (h i rfl).map some

end SameCode

/-! ## Names made small -/

namespace Expr

mutual

/-- The expression with the names of columns and their qualifiers made small. -/
def folded : Expr → Expr
  | .column table name => .column (table.map Text.folded) (Text.folded name)
  | .literal value => .literal value
  | .parameter index => .parameter index
  | .binary op left right => .binary op left.folded right.folded
  | .not operand => .not operand.folded
  | .isNull operand negated => .isNull operand.folded negated
  | .between operand low high negated => .between operand.folded low.folded high.folded negated
  | .row items => .row (foldedItems items)

def foldedItems : List Expr → List Expr
  | [] => []
  | item :: rest => item.folded :: foldedItems rest

end

/-- Whether the expression is a column. -/
def isColumn : Expr → Bool
  | .column .. => true
  | _ => false

theorem isColumn_folded (e : Expr) : e.folded.isColumn = e.isColumn := by
  cases e <;> rfl

end Expr

/-- The name made small. -/
def ObjectName.folded (n : ObjectName) : ObjectName :=
  { schema := n.schema.map Text.folded, name := Text.folded n.name }

/-- The reference with its name made small; an alias is kept. -/
def TableRef.folded (r : TableRef) : TableRef := { r with name := r.name.folded }

namespace SelectItem

/-- The entry with the names in it made small; the name of its result is kept. -/
def folded : SelectItem → SelectItem
  | .wildcard => .wildcard
  | .qualifiedWildcard table => .qualifiedWildcard (Text.folded table)
  | .expr e aliasName defaultName => .expr e.folded aliasName defaultName

/-- The name of a result is not read off the text of its expression: there is an alias or a name
that the parser gave, or the result is a column. -/
def NamesResult : SelectItem → Prop
  | .expr e aliasName defaultName => aliasName.isSome ∨ defaultName.isSome ∨ e.isColumn
  | _ => True

theorem namesResult_folded {item : SelectItem} : item.folded.NamesResult ↔ item.NamesResult := by
  cases item with
  | expr e aliasName defaultName =>
      show (aliasName.isSome ∨ defaultName.isSome ∨ e.folded.isColumn) ↔ _
      rw [Expr.isColumn_folded]
      rfl
  | _ => exact Iff.rfl

end SelectItem

/-- The term with the names in it made small. -/
def OrderItem.folded (item : OrderItem) : OrderItem := { item with expr := item.expr.folded }

namespace Select

/-- The query with the names in it made small. -/
def folded (q : Select) : Select :=
  { items := q.items.map SelectItem.folded
    sources := q.sources.map TableRef.folded
    predicate := q.predicate.map Expr.folded
    order := q.order.map OrderItem.folded
    offset := q.offset
    limit := q.limit }

/-- No name of a result is read off the text of its expression. -/
def NamesResults (q : Select) : Prop := ∀ item ∈ q.items, item.NamesResult

theorem namesResults_folded {q : Select} : q.folded.NamesResults ↔ q.NamesResults := by
  unfold NamesResults folded
  simp only [List.forall_mem_map, SelectItem.namesResult_folded]

end Select

/-! ## Expressions -/

namespace BoundSource

theorem find?_folded (s : BoundSource) (number : Nat) (name : String) :
    s.find? number (Text.folded name) = s.find? number name := by
  unfold find?
  simp only [Text.sameLetters_folded]

end BoundSource

namespace Scope

variable (scope : Scope)

theorem source?_folded (name : String) : scope.source? (Text.folded name) = scope.source? name := by
  unfold source?
  simp only [Text.sameLetters_folded]

theorem candidates_folded (name : String) :
    scope.candidates (Text.folded name) = scope.candidates name := by
  unfold candidates
  simp only [BoundSource.find?_folded]

theorem sameCode_resolve (qualifier : Option String) (name : String) :
    SameCode (scope.resolve qualifier name)
      (scope.resolve (qualifier.map Text.folded) (Text.folded name)) := by
  cases qualifier with
  | none =>
      unfold resolve
      dsimp only [Option.map_none]
      rw [candidates_folded]
      split
      next => exact .error rfl
      next => exact .refl _
      next => exact .error rfl
  | some qualifier =>
      unfold resolve
      dsimp only [Option.map_some]
      rw [source?_folded]
      split
      next => exact .error rfl
      next source number _ =>
        rw [BoundSource.find?_folded]
        split
        next => exact .error rfl
        next => exact .refl _

mutual

theorem sameCode_bindExpr : ∀ e : Expr, SameCode (scope.bindExpr e) (scope.bindExpr e.folded)
  | .column table name => (scope.sameCode_resolve table name).bind fun _ _ => .refl _
  | .literal _ => .refl _
  | .parameter _ => .refl _
  | .binary _ left right =>
      (sameCode_bindExpr left).bind fun _ _ => (sameCode_bindExpr right).bind fun _ _ => .refl _
  | .not operand => (sameCode_bindExpr operand).bind fun _ _ => .refl _
  | .isNull operand _ => (sameCode_bindExpr operand).bind fun _ _ => .refl _
  | .between operand low high _ =>
      (sameCode_bindExpr operand).bind fun _ _ => (sameCode_bindExpr low).bind fun _ _ =>
        (sameCode_bindExpr high).bind fun _ _ => .refl _
  | .row items => (sameCode_bindExprs items).bind fun _ _ => .refl _

theorem sameCode_bindExprs : ∀ items : List Expr,
    SameCode (scope.bindExprs items) (scope.bindExprs (Expr.foldedItems items))
  | [] => .refl _
  | item :: rest =>
      (sameCode_bindExpr item).bind fun _ _ => (sameCode_bindExprs rest).bind fun _ _ => .refl _

end

/-- The name of a result is the same for all spellings, unless it is the text of the expression. -/
theorem resultName_folded {e : Expr} {aliasName defaultName : Option String} {bound : BoundExpr}
    (hbound : scope.bindExpr e = .ok bound)
    (h : (SelectItem.expr e aliasName defaultName).NamesResult) :
    resultName aliasName defaultName e bound = resultName aliasName defaultName e.folded bound := by
  cases aliasName with
  | some aliasName => rfl
  | none =>
      cases defaultName with
      | some defaultName => cases bound <;> rfl
      | none =>
          have hcolumn : e.isColumn = true := by simpa [SelectItem.NamesResult] using h
          cases e with
          | column table name =>
              obtain ⟨c, -, hbound⟩ := bind_eq_ok.1 hbound
              cases hbound
              rfl
          | _ => cases hcolumn

theorem sameCode_bindItem {item : SelectItem} (h : item.NamesResult) :
    SameCode (scope.bindItem item) (scope.bindItem item.folded) := by
  cases item with
  | wildcard => exact .refl _
  | qualifiedWildcard table =>
      unfold SelectItem.folded bindItem
      dsimp only
      rw [source?_folded]
      split
      next => exact .error rfl
      next => exact .refl _
  | expr e aliasName defaultName =>
      refine (scope.sameCode_bindExpr e).bind fun bound hbound => ?_
      rw [scope.resultName_folded hbound h]
      exact .refl _

theorem sameCode_bindOrderItem (item : OrderItem) :
    SameCode (scope.bindOrderItem item) (scope.bindOrderItem item.folded) :=
  (scope.sameCode_bindExpr item.expr).bind fun _ _ => .refl _

end Scope

/-! ## Queries -/

namespace Select

variable {bindSource : TableRef → Except PlanError BoundSource}

theorem sameCode_bindSources (h : ∀ r, SameCode (bindSource r) (bindSource r.folded))
    (before : Scope) (refs : List TableRef) :
    SameCode (bindSources bindSource before refs)
      (bindSources bindSource before (refs.map TableRef.folded)) := by
  induction refs generalizing before with
  | nil => exact .refl _
  | cons r rest ih =>
      refine (h r).bind fun source _ => ?_
      dsimp only
      split
      · exact .refl _
      · exact ih _

theorem sameCode_bindIn (scope : Scope) {q : Select} (h : q.NamesResults) :
    SameCode (q.bindIn scope) (q.folded.bindIn scope) := by
  refine (SameCode.mapM fun item hitem => scope.sameCode_bindItem (h item hitem)).bind ?_
  intro results _
  refine (SameCode.option_mapM fun e _ => scope.sameCode_bindExpr e).bind fun predicate _ => ?_
  refine (SameCode.mapM fun item _ => scope.sameCode_bindOrderItem item).bind fun order _ => ?_
  exact .refl _

theorem sameCode_bindWith (h : ∀ r, SameCode (bindSource r) (bindSource r.folded)) {q : Select}
    (hq : q.NamesResults) : SameCode (q.bindWith bindSource) (q.folded.bindWith bindSource) := by
  rw [bindWith_eq, bindWith_eq]
  exact (sameCode_bindSources h [] q.sources).bind fun scope _ => sameCode_bindIn scope hq

end Select

namespace Session

variable (s : Session)

theorem view?_folded (n : ObjectName) : s.view? n.folded = s.view? n := by
  obtain ⟨schema, name⟩ := n
  cases schema with
  | none => exact Directory.find?_congr _ (Text.lowercase_folded name)
  | some schema => rfl

/-- A table that is named without a schema is looked for in the default schema in all spellings. -/
theorem lowercase_qualify_folded (n : ObjectName) (defaultSchema : String) :
    Text.lowercase (n.folded.qualify defaultSchema).schema =
        Text.lowercase (n.qualify defaultSchema).schema ∧
      Text.lowercase (n.folded.qualify defaultSchema).table =
        Text.lowercase (n.qualify defaultSchema).table := by
  obtain ⟨schema, name⟩ := n
  refine ⟨?_, Text.lowercase_folded name⟩
  cases schema with
  | none => rfl
  | some schema => exact Text.lowercase_folded schema

theorem sameCode_bindTable (n : ObjectName) :
    SameCode (s.bindTable n) (s.bindTable n.folded) := by
  obtain ⟨hschema, htable⟩ := lowercase_qualify_folded n s.defaultSchema
  have hfind := s.catalog.schemas.find?_congr hschema
  have hhas : s.catalog.hasSchema (n.folded.qualify s.defaultSchema).schema =
      s.catalog.hasSchema (n.qualify s.defaultSchema).schema := congrArg Option.isSome hfind
  have hheld : s.catalog.table? (n.folded.qualify s.defaultSchema) =
      s.catalog.table? (n.qualify s.defaultSchema) := by
    unfold Catalog.table?
    rw [hfind]
    exact congrArg _ (funext fun schema => schema.tables.find?_congr htable)
  unfold bindTable
  dsimp only
  rw [hhas, hheld]
  split
  · split
    next => exact .refl _
    next => exact .error rfl
  · exact .error rfl

theorem sameCode_bindSource (expanding : List String) (r : TableRef) :
    SameCode (s.bindSource expanding r) (s.bindSource expanding r.folded) := by
  have hview := s.view?_folded r.name
  cases h : s.view? r.name with
  | none =>
      rw [bindSource_of_table h, bindSource_of_table (hview.trans h)]
      exact (s.sameCode_bindTable r.name).map _
  | some w =>
      -- The query of the view is the same, and so is the alias.
      by_cases hkey : Named.key w ∈ expanding
      · rw [bindSource_of_expanding h hkey, bindSource_of_expanding (hview.trans h) hkey]
        exact .refl _
      · rw [bindSource_of_view h hkey, bindSource_of_view (hview.trans h) hkey]
        exact .refl _

/-- A query is bound to the same in all spellings of the names in it, or refused with the same
code. -/
theorem sameCode_bindSelect {q : Select} (h : q.NamesResults) :
    SameCode (s.bindSelect q) (s.bindSelect q.folded) :=
  Select.sameCode_bindWith (s.sameCode_bindSource []) h

end Session

end QueryPlanner
