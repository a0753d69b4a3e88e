import QueryPlanner.Command.Run
import QueryPlanner.Proofs.Plan.Hints
import QueryPlanner.Proofs.Plan.OperatorLines
import QueryPlanner.Proofs.Plan.PlaceholderSlots

/-!
# Line feeds in plans

A plan is shown with one line for each operator, unless it says something with a line feed in it.
What it says is made of names and of the SQL texts of expressions: those of the statement, of the
views that it reads and of their tables.  So the line feed is in one of these.

Main statement: `compile_lines`.
-/

namespace QueryPlanner

open Text

/-! ## SQL texts -/

section Sql

variable {a b c : String} {callA callB callC negated : Bool}

@[simp] theorem isLine_parenthesized : IsLine (parenthesized callA a) ↔ IsLine a := by
  have hopen : IsLine "(" := by decide
  have hclose : IsLine ")" := by decide
  cases callA <;> simp [parenthesized, hopen, hclose]

theorem isLine_operation {op : BinaryOp} :
    IsLine (parenthesized callA a ++ " " ++ op.symbol ++ " " ++ parenthesized callB b) ↔
      IsLine a ∧ IsLine b := by
  have hblank : IsLine " " := by decide
  have hsymbol : IsLine op.symbol := by cases op <;> decide
  simp [hblank, hsymbol]

theorem isLine_negation : IsLine ("NOT " ++ parenthesized callA a) ↔ IsLine a := by
  have hword : IsLine "NOT " := by decide
  simp [hword]

theorem isLine_nullTest : IsLine (parenthesized callA a ++ nullTest negated) ↔ IsLine a := by
  have htest : IsLine (nullTest negated) := by cases negated <;> decide
  simp [htest]

theorem isLine_rangeTest :
    IsLine (parenthesized callA a ++ rangeTest negated ++ parenthesized callB b ++ " AND " ++
      parenthesized callC c) ↔ IsLine a ∧ IsLine b ∧ IsLine c := by
  have htest : IsLine (rangeTest negated) := by cases negated <;> decide
  have hand : IsLine " AND " := by decide
  simp [htest, hand, and_assoc]

theorem isLine_commas_iff {items : List String} :
    IsLine (Operator.commas items) ↔ ∀ item ∈ items, IsLine item :=
  isLine_intercalate_iff (by decide)

theorem isLine_list {items : List String} :
    IsLine ("(" ++ String.intercalate ", " items ++ ")") ↔ ∀ item ∈ items, IsLine item := by
  have hopen : IsLine "(" := by decide
  have hclose : IsLine ")" := by decide
  rw [isLine_append, isLine_append, ← isLine_commas_iff]
  simp [hopen, hclose, Operator.commas]

theorem isLine_getD {o : Option String} (ho : ∀ s ∈ o, IsLine s) (ha : IsLine a) :
    IsLine (o.getD a) := by
  cases o with
  | none => exact ha
  | some s => exact ho s rfl

end Sql

namespace BoundExpr

theorem isLine_of_mem_conjuncts {e c : BoundExpr} (h : IsLine e.sql) (hc : c ∈ e.conjuncts) :
    IsLine c.sql := by
  fun_induction conjuncts e with
  | case1 left right ihLeft ihRight =>
      rw [sql, isLine_operation] at h
      rcases List.mem_append.1 hc with hc | hc
      · exact ihLeft h.1 hc
      · exact ihRight h.2 hc
  | case2 e _ =>
      obtain rfl := List.mem_singleton.1 hc
      exact h

mutual

/-- The text of an expression has the texts of its constants in it. -/
theorem isLine_of_mem_constants :
    ∀ e : BoundExpr, IsLine e.sql → ∀ value ∈ e.constants, IsLine value.text
  | .column _, _ => nofun
  | .literal _, h => List.forall_mem_singleton.2 h
  | .parameter _, h => List.forall_mem_singleton.2 h
  | .binary _ left right, h => by
      rw [sql, isLine_operation] at h
      exact List.forall_mem_append.2
        ⟨isLine_of_mem_constants left h.1, isLine_of_mem_constants right h.2⟩
  | .not operand, h => by
      rw [sql, isLine_negation] at h
      exact isLine_of_mem_constants operand h
  | .isNull operand _, h => by
      rw [sql, isLine_nullTest] at h
      exact isLine_of_mem_constants operand h
  | .between operand low high _, h => by
      rw [sql, isLine_rangeTest] at h
      obtain ⟨hoperand, hlow, hhigh⟩ := h
      rw [constants, List.forall_mem_append, List.forall_mem_append]
      exact ⟨⟨isLine_of_mem_constants operand hoperand, isLine_of_mem_constants low hlow⟩,
        isLine_of_mem_constants high hhigh⟩
  | .row items, h => by
      rw [sql, isLine_list] at h
      exact isLine_of_mem_constantsOfItems items h

theorem isLine_of_mem_constantsOfItems :
    ∀ items : List BoundExpr, (∀ s ∈ sqlItems items, IsLine s) →
      ∀ value ∈ constantsOfItems items, IsLine value.text
  | [], _ => nofun
  | item :: rest, h => by
      rw [sqlItems, List.forall_mem_cons] at h
      exact List.forall_mem_append.2
        ⟨isLine_of_mem_constants item h.1, isLine_of_mem_constantsOfItems rest h.2⟩

end

end BoundExpr

theorem KeyRange.isLine_text {r : KeyRange} (h : ∀ value ∈ r.values, IsLine value.text) :
    IsLine r.text := by
  have hend {strict inclusive : String} (hstrict : IsLine strict) (hinclusive : IsLine inclusive)
      {e : Option RangeEnd} (he : ∀ last ∈ e, last ∈ r.lo.toList ++ r.hi.toList) :
      IsLine (endText strict inclusive e) := by
    cases e with
    | none => exact (by decide : IsLine "")
    | some e =>
        have hbound : IsLine e.bound.text := by
          refine isLine_list.2 (List.forall_mem_map.2 fun value hvalue => ?_)
          exact h value (List.mem_flatMap.2 ⟨e, he e rfl, hvalue⟩)
        have hcompared : IsLine (if e.inclusive then inclusive else strict) := by
          split
          · exact hinclusive
          · exact hstrict
        simp only [endText, isLine_append]
        exact ⟨⟨hcompared, by decide⟩, hbound⟩
  simp only [text, isLine_append]
  refine ⟨⟨⟨⟨by decide, ?_⟩, by decide⟩, ?_⟩, by decide⟩
  · exact hend (by decide) (by decide) fun last hlast =>
      List.mem_append_left _ (Option.mem_toList.2 hlast)
  · exact hend (by decide) (by decide) fun last hlast =>
      List.mem_append_right _ (Option.mem_toList.2 hlast)

/-! ## Operators -/

/-- No operator of a tree is described with a line feed. -/
def Operator.Unbroken (op : Operator) : Prop :=
  ∀ depth node, node ∈ op.outline depth → IsLine node.2.detail

namespace Operator

theorem Unbroken.of_input {op input : Operator} (hop : IsLine op.detail) (hinput : input.Unbroken)
    (houtline : ∀ depth, op.outline depth = (depth, op) :: input.outline (depth + 1)) :
    op.Unbroken := forall_outline_of_input (P := fun op => IsLine op.detail) hop hinput houtline

theorem Unbroken.of_leaf {op : Operator} (hop : IsLine op.detail)
    (houtline : ∀ depth, op.outline depth = [(depth, op)]) : op.Unbroken := by
  intro depth node hnode
  rw [houtline, List.mem_singleton] at hnode
  rw [hnode]
  exact hop

theorem unbroken_combine {inputs : List Operator} (h : ∀ op ∈ inputs, op.Unbroken) :
    (combine inputs).Unbroken := by
  match inputs with
  | [] => exact .of_leaf (by decide) fun _ => rfl
  | [op] => exact h op List.mem_cons_self
  | first :: second :: rest =>
      intro depth node hnode
      rcases List.mem_cons.1 hnode with rfl | hnode
      · exact (by decide : IsLine "")
      · obtain ⟨op, hop, hnode⟩ := exists_of_mem_outlineInputs hnode
        exact h op hop _ node hnode

theorem unbroken_restrict {predicate : Option BoundExpr} {input : Operator}
    (hpredicate : ∀ e ∈ predicate, IsLine e.sql) (hinput : input.Unbroken) :
    (restrict predicate input).Unbroken := by
  cases predicate with
  | none => exact hinput
  | some e => exact .of_input (hpredicate e rfl) hinput fun _ => rfl

theorem unbroken_arrange {order : List BoundOrderItem} {input : Operator}
    (horder : ∀ item ∈ order, IsLine item.expr.sql) (hinput : input.Unbroken) :
    (arrange order input).Unbroken := by
  unfold arrange
  split
  · exact hinput
  · refine .of_input (isLine_commas_iff.2 (List.forall_mem_map.2 fun item hitem => ?_)) hinput
      fun _ => rfl
    have hdirection : IsLine (if item.descending then " DESC" else " ASC") := by
      split <;> decide
    exact isLine_append.2 ⟨horder item hitem, hdirection⟩

theorem isLine_resultText {item : ResultItem} (hexpr : IsLine item.expr.sql)
    (hname : IsLine item.name) : IsLine (resultText item) := by
  have hrenamed : IsLine (item.expr.sql ++ " AS " ++ item.name) :=
    isLine_append.2 ⟨isLine_append.2 ⟨hexpr, by decide⟩, hname⟩
  unfold resultText
  split
  next c hc =>
    split
    · exact hexpr
    · exact hrenamed
  next => exact hrenamed

end Operator

/-! ## Scopes -/

/-- The names that references to a source are written with have no line feed. -/
structure BoundSource.OnLines (source : BoundSource) : Prop where
  aliasName : IsLine source.aliasName
  columns : ∀ c ∈ source.columns, IsLine c.name

namespace Scope

variable {scope : Scope}

theorem Refers.isLine (hscope : ∀ source ∈ scope, source.OnLines) {c : BoundColumn}
    (h : scope.Refers c) : IsLine c.name ∧ IsLine (BoundExpr.column c).sql := by
  obtain ⟨source, number, column, hsource, hcolumn, rfl⟩ := h
  have hlines := hscope source (List.fst_mem_of_mem_zipIdx hsource)
  have hname := hlines.columns column.1 (List.fst_mem_of_mem_zipIdx hcolumn)
  exact ⟨hname, isLine_append.2 ⟨isLine_append.2 ⟨hlines.aliasName, by decide⟩, hname⟩⟩

mutual

theorem gives_isLine_bindExpr (hscope : ∀ source ∈ scope, source.OnLines) :
    ∀ e : Expr, IsLine e.sql → Gives (IsLine ·.sql) (scope.bindExpr e)
  | .column table name, _ =>
      (gives_refers_resolve table name).bind fun _ hc => (hc.isLine hscope).2
  | .literal _, h => h
  | .parameter _, h => h
  | .binary _ left right, h => by
      rw [Expr.sql, isLine_operation] at h
      refine (gives_isLine_bindExpr hscope left h.1).bind fun _ hleft => ?_
      refine (gives_isLine_bindExpr hscope right h.2).bind fun _ hright => ?_
      exact isLine_operation.2 ⟨hleft, hright⟩
  | .not operand, h => by
      rw [Expr.sql, isLine_negation] at h
      exact (gives_isLine_bindExpr hscope operand h).bind fun _ => isLine_negation.2
  | .isNull operand _, h => by
      rw [Expr.sql, isLine_nullTest] at h
      exact (gives_isLine_bindExpr hscope operand h).bind fun _ => isLine_nullTest.2
  | .between operand low high _, h => by
      rw [Expr.sql, isLine_rangeTest] at h
      refine (gives_isLine_bindExpr hscope operand h.1).bind fun _ hoperand => ?_
      refine (gives_isLine_bindExpr hscope low h.2.1).bind fun _ hlow => ?_
      refine (gives_isLine_bindExpr hscope high h.2.2).bind fun _ hhigh => ?_
      exact isLine_rangeTest.2 ⟨hoperand, hlow, hhigh⟩
  | .row items, h => by
      rw [Expr.sql, isLine_list] at h
      exact (gives_isLine_bindExprs hscope items h).bind fun _ => isLine_list.2

theorem gives_isLine_bindExprs (hscope : ∀ source ∈ scope, source.OnLines) :
    ∀ items : List Expr, (∀ s ∈ Expr.sqlItems items, IsLine s) →
      Gives (fun bound => ∀ s ∈ BoundExpr.sqlItems bound, IsLine s) (scope.bindExprs items)
  | [], _ => nofun
  | item :: rest, h => by
      rw [Expr.sqlItems, List.forall_mem_cons] at h
      refine (gives_isLine_bindExpr hscope item h.1).bind fun _ hitem => ?_
      refine (gives_isLine_bindExprs hscope rest h.2).bind fun _ hrest => ?_
      exact List.forall_mem_cons.2 ⟨hitem, hrest⟩

end

theorem isLine_resultName {aliasName defaultName : Option String} {e : Expr} {bound : BoundExpr}
    (hnames : ∀ name ∈ aliasName.toList ++ defaultName.toList, IsLine name)
    (he : IsLine e.sql) (hbound : IsLine bound.sql) :
    IsLine (resultName aliasName defaultName e bound) := by
  unfold resultName
  split
  next name => exact hnames name (List.mem_append_left _ (Option.mem_toList.2 rfl))
  next c => exact (isLine_append.1 hbound).2
  next =>
    refine isLine_getD (fun name hname => ?_) he
    exact hnames name (List.mem_append_right _ (Option.mem_toList.2 hname))

end Scope

/-! ## Texts -/

/-- What plans show of a table: its name, and those of its columns and indexes. -/
def Table.shownTexts (t : Table) : List String :=
  t.name.text :: t.columns.map (·.name) ++ t.indexes.map Index.text

/-- The names that an entry of a select list brings along for its result. -/
def SelectItem.names : SelectItem → List String
  | .expr _ aliasName defaultName => aliasName.toList ++ defaultName.toList
  | _ => []

/-- What plans show of a query: the names that it gives its sources and results, and its
expressions. -/
def Select.shownTexts (q : Select) : List String :=
  q.sources.flatMap (·.aliasName.toList) ++ q.items.flatMap SelectItem.names ++
    q.exprs.map Expr.sql

/-- What plans show of a view. -/
def View.shownTexts (w : View) : List String := w.name :: w.columns ++ w.query.shownTexts

/-- What plans show of the tables and views of a session. -/
def Session.shownTexts (s : Session) : List String :=
  s.catalog.tables.flatMap Table.shownTexts ++ s.views.items.flatMap View.shownTexts

/-- What plans show of a statement. -/
def Statement.shownTexts (statement : Statement) : List String :=
  match statement.query? with
  | some q => q.shownTexts
  | none => statement.exprs.map Expr.sql

theorem Scope.Shows.isLine {scope : Scope} (hscope : ∀ source ∈ scope, source.OnLines)
    {item : SelectItem} {result : ResultItem} (h : scope.Shows item result)
    (hnames : ∀ name ∈ item.names, IsLine name) (hexprs : ∀ e ∈ item.exprs, IsLine e.sql) :
    IsLine result.expr.sql ∧ IsLine result.name := by
  cases h with
  | column refers => exact (refers.isLine hscope).symm
  | @expr e aliasName defaultName bound binds =>
      have he : IsLine e.sql := hexprs e (List.mem_singleton_self e)
      have hbound := (gives_isLine_bindExpr hscope e he).of_eq_ok binds
      exact ⟨hbound, isLine_resultName hnames he hbound⟩

/-! ## Tables -/

section Tables

variable {t : Table}

theorem BoundSource.onLines_ofTable (ht : ∀ text ∈ t.shownTexts, IsLine text)
    {aliasName : Option String} (halias : ∀ name ∈ aliasName, IsLine name) :
    (ofTable t aliasName).OnLines where
  aliasName := by
    have hname : IsLine t.name.text := ht _ List.mem_cons_self
    exact isLine_getD halias (isLine_append.1 hname).2
  columns := by
    intro c hc
    obtain ⟨column, hcolumn, rfl⟩ := List.mem_map.1 hc
    exact ht _ (List.mem_append_left _ (List.mem_cons_of_mem _ (List.mem_map_of_mem hcolumn)))

/-- An update and a deletion refer to the table alone. -/
theorem Table.onLines_scope (ht : ∀ text ∈ t.shownTexts, IsLine text) :
    ∀ source ∈ ([.ofTable t none] : Scope), source.OnLines := by
  rw [List.forall_mem_singleton]
  exact BoundSource.onLines_ofTable ht (by simp)

/-- An access path is described by names of its table and constants of the conjuncts. -/
theorem Table.unbroken_access (ht : ∀ text ∈ t.shownTexts, IsLine text) {source : Nat}
    {conjuncts : List BoundExpr} (hconjuncts : ∀ c ∈ conjuncts, IsLine c.sql) {op : Operator}
    (h : t.access source conjuncts = .ok op) : op.Unbroken := by
  obtain ⟨range, hrange, h⟩ := bind_eq_ok.1 h
  cases range with
  | none =>
      cases h
      exact .of_leaf (ht _ List.mem_cons_self) fun _ => rfl
  | some range =>
      cases h
      have hindex : IsLine range.index.text :=
        ht _ (List.mem_append_right _ (List.mem_map_of_mem (index_mem_of_chooseRange hrange)))
      have htext : IsLine range.text := by
        refine KeyRange.isLine_text fun value hvalue => ?_
        obtain ⟨c, hc, hconstant⟩ := List.mem_flatMap.1 (constants_of_chooseRange hrange hvalue)
        exact c.isLine_of_mem_constants (hconjuncts c hc) value hconstant
      have hmark : IsLine (if range.lexicographic then ", lexicographic" else "") := by
        split <;> decide
      refine .of_leaf ?_ fun _ => rfl
      simp only [Operator.detail, isLine_append]
      exact ⟨⟨⟨hindex, by decide⟩, htext⟩, hmark⟩

end Tables

/-! ## Queries -/

/-- The expressions and the results of a bound query have no line feed. -/
structure BoundSelect.OnLines (b : BoundSelect) : Prop where
  results : ∀ result ∈ b.results, IsLine result.expr.sql ∧ IsLine result.name
  predicate : ∀ e ∈ b.predicate, IsLine e.sql
  order : ∀ item ∈ b.order, IsLine item.expr.sql

theorem Select.Binds.onLines {bindSource : TableRef → Except PlanError BoundSource} {q : Select}
    {b : BoundSelect} (h : q.Binds bindSource b) (hq : ∀ text ∈ q.shownTexts, IsLine text)
    (hsources : ∀ source ∈ b.sources, source.OnLines) : b.OnLines := by
  rw [Select.shownTexts, List.forall_mem_append, List.forall_mem_append, List.forall_mem_map,
    Select.exprs_eq, List.forall_mem_append, List.forall_mem_append] at hq
  obtain ⟨⟨-, hnames⟩, ⟨hitems, hpredicate⟩, horder⟩ := hq
  refine ⟨fun result hresult => ?_, ?_, ?_⟩
  · obtain ⟨item, hitem, hshows⟩ := h.exists_shows result hresult
    exact hshows.isLine hsources
      (fun name hname => hnames name (List.mem_flatMap.2 ⟨item, hitem, hname⟩))
      fun e he => hitems e (List.mem_flatMap.2 ⟨item, hitem, he⟩)
  · refine (Gives.option_mapM fun e he => ?_).of_eq_ok h.predicate
    exact Scope.gives_isLine_bindExpr hsources e (hpredicate e (Option.mem_toList.2 he))
  · refine (Gives.mapM fun item hitem => ?_).of_eq_ok h.order
    have he : IsLine item.expr.sql := horder item.expr (List.mem_map_of_mem hitem)
    exact (Scope.gives_isLine_bindExpr hsources item.expr he).bind fun _ hbound => hbound

theorem BoundSelect.OnLines.unbroken {b : BoundSelect} (hb : b.OnLines)
    (hsources : ∀ source ∈ b.sources, ∀ conjuncts number op, (∀ c ∈ conjuncts, IsLine c.sql) →
      source.operator conjuncts number = .ok op → op.Unbroken)
    {op : Operator} (h : b.operator = .ok op) : op.Unbroken := by
  obtain ⟨inputs, hinputs, rfl⟩ := BoundSelect.operator_eq_ok.1 h
  have hconjuncts : ∀ c ∈ b.predicate.toList.flatMap BoundExpr.conjuncts, IsLine c.sql := by
    intro c hc
    obtain ⟨e, he, hc⟩ := List.mem_flatMap.1 hc
    exact BoundExpr.isLine_of_mem_conjuncts (hb.predicate e (Option.mem_toList.1 he)) hc
  have hcombine : (Operator.combine inputs).Unbroken := by
    refine Operator.unbroken_combine fun input hinput => ?_
    obtain ⟨source, hsource, number, hop⟩ := exists_of_mem_sourceOperators hinputs hinput
    exact hsources source hsource _ number input hconjuncts hop
  have hrestrict := Operator.unbroken_restrict hb.predicate hcombine
  refine .of_input ?_ (Operator.unbroken_arrange hb.order hrestrict) fun _ => rfl
  refine isLine_commas_iff.2 (List.forall_mem_map.2 fun result hresult => ?_)
  exact Operator.isLine_resultText (hb.results result hresult).1 (hb.results result hresult).2

theorem View.onLines_source {w : View} (hw : ∀ text ∈ w.shownTexts, IsLine text)
    {aliasName : Option String} (halias : ∀ name ∈ aliasName, IsLine name) {b : BoundSelect}
    (hb : b.OnLines) {source : BoundSource} (h : w.source aliasName b = .ok source) :
    source.OnLines := by
  obtain ⟨-, types, -, rfl⟩ := View.source_eq_ok_iff.1 h
  refine ⟨isLine_getD halias (hw _ List.mem_cons_self), fun column hcolumn => ?_⟩
  obtain ⟨⟨⟨result, type⟩, i⟩, hmem, rfl⟩ := List.mem_map.1 hcolumn
  have hresult : result ∈ b.results := (List.of_mem_zip (List.fst_mem_of_mem_zipIdx hmem)).1
  refine isLine_getD (fun name hname => ?_) (hb.results result hresult).2
  exact hw name (List.mem_append_left _ (List.mem_cons_of_mem _ (List.mem_of_getElem? hname)))

namespace Session

variable {s : Session} {expanding : List String}

/-- A source is referred to, and read, without line feeds. -/
def ReadsOnLines (s : Session) (expanding : List String) (r : TableRef) : Prop :=
  ∀ source, s.bindSource expanding r = .ok source → source.OnLines ∧
    ∀ conjuncts number op, (∀ c ∈ conjuncts, IsLine c.sql) →
      source.operator conjuncts number = .ok op → op.Unbroken

theorem onLines_of_sources {q : Select} (hq : ∀ text ∈ q.shownTexts, IsLine text)
    (h : ∀ r ∈ q.sources, s.ReadsOnLines expanding r) {b : BoundSelect}
    (hb : q.bindWith (s.bindSource expanding) = .ok b) :
    b.OnLines ∧ ∀ op, b.operator = .ok op → op.Unbroken := by
  have hbinds := Select.bindWith_eq_ok hb
  have hsource : ∀ source ∈ b.sources, ∃ r ∈ q.sources, s.bindSource expanding r = .ok source :=
    fun source hsource => exists_of_mem_mapM hbinds.sources hsource
  have hlines : b.OnLines := by
    refine hbinds.onLines hq fun source hmem => ?_
    obtain ⟨r, hr, hbound⟩ := hsource source hmem
    exact (h r hr source hbound).1
  refine ⟨hlines, fun op hop => hlines.unbroken (fun source hmem => ?_) hop⟩
  obtain ⟨r, hr, hbound⟩ := hsource source hmem
  exact (h r hr source hbound).2

theorem isLine_texts_of_bindTable (hs : ∀ text ∈ s.shownTexts, IsLine text) {name : ObjectName}
    {t : Table} (ht : s.bindTable name = .ok t) : ∀ text ∈ t.shownTexts, IsLine text := by
  intro text htext
  have hmem : t ∈ s.catalog.tables := Catalog.mem_tables_of_table? (table?_of_bindTable ht)
  exact hs text (List.mem_append_left _ (List.mem_flatMap.2 ⟨t, hmem, htext⟩))

/-- Every source is read without line feeds where nothing has one, by induction on the views that
are not being expanded. -/
theorem readsOnLines (hs : ∀ text ∈ s.shownTexts, IsLine text) (expanding : List String) :
    ∀ r : TableRef, (∀ name ∈ r.aliasName, IsLine name) → s.ReadsOnLines expanding r := by
  induction expanding using s.expansion_induction with
  | inside expanding ih =>
      intro r halias source hsource
      obtain ⟨-, t, ht, rfl⟩ | ⟨w, hview, hkey, b, hb, hsource⟩ := bindSource_eq_ok hsource
      · have htexts := isLine_texts_of_bindTable hs ht
        exact ⟨BoundSource.onLines_ofTable htexts halias, fun conjuncts number op hconjuncts hop =>
          Table.unbroken_access htexts hconjuncts hop⟩
      · have hmem := mem_views_of_view? hview
        have hw : ∀ text ∈ w.shownTexts, IsLine text := fun text htext =>
          hs text (List.mem_append_right _ (List.mem_flatMap.2 ⟨w, hmem, htext⟩))
        have hq : ∀ text ∈ w.query.shownTexts, IsLine text := fun text htext =>
          hw text (List.mem_append_right _ htext)
        have hinside : ∀ r ∈ w.query.sources, s.ReadsOnLines (Named.key w :: expanding) r := by
          intro r hr
          refine ih w hmem hkey r fun name hname => hq name ?_
          exact List.mem_append_left _ (List.mem_append_left _
            (List.mem_flatMap.2 ⟨r, hr, Option.mem_toList.2 hname⟩))
        obtain ⟨hlines, hunbroken⟩ := onLines_of_sources hq hinside hb
        refine ⟨View.onLines_source hw halias hlines hsource, ?_⟩
        intro conjuncts number op _ hop
        rw [View.operator_of_source hsource] at hop
        obtain ⟨_, -, hop⟩ := bind_eq_ok.1 hop
        exact hunbroken op hop

end Session

/-! ## Statements -/

namespace Table

variable {t : Table}

theorem gives_unbroken_filteredAccess (ht : ∀ text ∈ t.shownTexts, IsLine text) {scope : Scope}
    (hscope : ∀ source ∈ scope, source.OnLines) {predicate : Option Expr}
    (hpredicate : ∀ e ∈ predicate, IsLine e.sql) :
    Typing.Gives Operator.Unbroken (t.filteredAccess scope predicate) := by
  cases predicate with
  | none =>
      refine .ofExcept ((t.gives_access 0 []).and_eq.imp fun op hop => ?_)
      exact unbroken_access ht (List.forall_mem_nil _) hop.1
  | some e =>
      have hbind := Scope.gives_isLine_bindExpr hscope e (hpredicate e rfl)
      refine (Typing.Gives.ofExcept hbind).bind fun bound hbound => ?_
      refine (Typing.rules_gives.resolvePredicate fun _ _ => trivial).bind fun _ _ => ?_
      refine (Typing.Gives.ofExcept (t.gives_access 0 _).and_eq).bind fun op hop => .pure ?_
      have hscan := unbroken_access ht (fun c => BoundExpr.isLine_of_mem_conjuncts hbound) hop.1
      exact .of_input hbound hscan fun _ => rfl

theorem gives_isLine_valueRow (targets : List TargetColumn) {row : List Expr}
    (hrow : ∀ e ∈ row, IsLine e.sql) :
    Typing.Gives (∀ value ∈ ·, IsLine value.sql) (t.valueRow targets row) := by
  refine (Typing.Gives.ofExcept (gives_checkWidth _ _)).bind fun _ _ => ?_
  refine Typing.Gives.mapM fun (target, e) hpair => ?_
  have he : IsLine e.sql := hrow e (List.of_mem_zip hpair).2
  have hbind : Gives (IsLine ·.sql) (Scope.bindExpr [] e) :=
    Scope.gives_isLine_bindExpr (List.forall_mem_nil _) e he
  refine (Typing.Gives.ofExcept hbind).bind fun bound hbound => ?_
  exact (Typing.rules_gives.resolveFor (fun _ _ => trivial) _).bind fun _ _ => .pure hbound

theorem HasTarget.isLine (ht : ∀ text ∈ t.shownTexts, IsLine text) {target : TargetColumn}
    (h : t.HasTarget target) : IsLine target.name := by
  obtain ⟨c, hc, hname⟩ := h
  have hmem : c.name ∈ t.columns.map (·.name) := List.mem_map_of_mem (List.mem_of_getElem? hc)
  exact hname ▸ ht c.name (List.mem_append_left _ (List.mem_cons_of_mem _ hmem))

end Table

namespace Session

variable {s : Session}

theorem gives_unbroken_compileSelect (hs : ∀ text ∈ s.shownTexts, IsLine text) {q : Select}
    (hq : ∀ text ∈ q.shownTexts, IsLine text) :
    Typing.Gives (·.1.Unbroken) (s.compileSelect q) := by
  have hsources : ∀ r ∈ q.sources, s.ReadsOnLines [] r := by
    intro r hr
    refine readsOnLines hs [] r fun name hname => hq name ?_
    exact List.mem_append_left _ (List.mem_append_left _
      (List.mem_flatMap.2 ⟨r, hr, Option.mem_toList.2 hname⟩))
  refine (Typing.Gives.ofExcept (s.gives_bindSelect q).and_eq).bind fun b hb => ?_
  refine b.gives_resolve.bind fun results _ => ?_
  have hop := gives_operator_of_sources (gives_operator_of_bindSource s []) hb.1
  refine (Typing.Gives.ofExcept hop.and_eq).bind fun op hop => .pure ?_
  exact (onLines_of_sources hq hsources hb.1).2 op hop.1

theorem gives_unbroken_compileInsertSource (hs : ∀ text ∈ s.shownTexts, IsLine text) (t : Table)
    (targets : List TargetColumn) {table : ObjectName} {columns : List String}
    {source : InsertSource}
    (h : ∀ text ∈ (Statement.insert table columns source).shownTexts, IsLine text) :
    Typing.Gives Operator.Unbroken (s.compileInsertSource t targets source) := by
  cases source with
  | values rows =>
      have hrow : ∀ row ∈ rows, Typing.Gives (∀ value ∈ ·, IsLine value.sql)
          (t.valueRow targets row) := by
        intro row hrow
        refine Table.gives_isLine_valueRow targets fun e he => h e.sql ?_
        exact List.mem_map_of_mem (List.mem_flatten_of_mem hrow he)
      refine (Typing.Gives.mapM hrow).bind fun bound hbound => .pure ?_
      refine .of_leaf (isLine_commas_iff.2 (List.forall_mem_map.2 fun row hrow => ?_)) fun _ => rfl
      have hvalues : IsLine (Operator.commas (row.map BoundExpr.sql)) :=
        isLine_commas_iff.2 (List.forall_mem_map.2 (hbound row hrow))
      exact isLine_append.2 ⟨isLine_append.2 ⟨by decide, hvalues⟩, by decide⟩
  | select q =>
      refine (gives_unbroken_compileSelect hs h).bind fun (op, results) hop => ?_
      refine (Typing.Gives.ofExcept (Table.gives_checkWidth _ _)).bind fun _ _ => ?_
      exact (Typing.Gives.ofExcept (t.gives_checkResults _ _)).bind fun _ _ => .pure hop

theorem gives_isLine_compileAssignment {t : Table} (ht : ∀ text ∈ t.shownTexts, IsLine text)
    {scope : Scope} (hscope : ∀ source ∈ scope, source.OnLines) {a : Assignment}
    (ha : IsLine a.value.sql) :
    Typing.Gives (fun bound => IsLine (bound.1.name ++ " = " ++ bound.2.sql))
      (compileAssignment t scope a) := by
  refine (Typing.Gives.ofExcept (t.gives_target a.column).and_eq).bind fun target htarget => ?_
  have hbind := Scope.gives_isLine_bindExpr hscope a.value ha
  refine (Typing.Gives.ofExcept hbind).bind fun value hvalue => ?_
  refine (Typing.rules_gives.resolveFor (fun _ _ => trivial) _).bind fun _ _ => .pure ?_
  have hname := (Table.hasTarget_of_target htarget.1).isLine ht
  exact isLine_append.2 ⟨isLine_append.2 ⟨hname, by decide⟩, hvalue⟩

/-- Where neither the session nor a statement has a line feed, the operators of the statement are
described without. -/
theorem gives_unbroken_compileRows (hs : ∀ text ∈ s.shownTexts, IsLine text)
    {statement : Statement} (h : ∀ text ∈ statement.shownTexts, IsLine text) :
    Typing.Gives (·.1.Unbroken) (s.compileRows statement) := by
  cases statement with
  | select q => exact gives_unbroken_compileSelect hs h
  | insert table columns source =>
      refine Typing.Gives.bind (P := Operator.Unbroken) ?_ fun op hop => .pure hop
      rw [compileInsert_eq]
      refine (Typing.Gives.ofExcept (s.gives_bindTable table).and_eq).bind fun t hbind => ?_
      have ht := isLine_texts_of_bindTable hs hbind.1
      refine (Typing.Gives.ofExcept (t.gives_insertTargets columns).and_eq).bind
        fun targets htargets => ?_
      refine (gives_unbroken_compileInsertSource hs t targets h).bind fun op hop => .pure ?_
      have hnames : IsLine (Operator.commas (targets.map (·.name))) := by
        refine isLine_commas_iff.2 (List.forall_mem_map.2 fun target hmem => ?_)
        exact ((Table.hasTargets_of_insertTargets htargets.1).columns target hmem).isLine ht
      refine .of_input ?_ hop fun _ => rfl
      simp only [Operator.detail, isLine_append]
      exact ⟨⟨⟨ht _ List.mem_cons_self, by decide⟩, hnames⟩, by decide⟩
  | update table assignments predicate =>
      rw [Statement.shownTexts] at h
      refine Typing.Gives.bind (P := Operator.Unbroken) ?_ fun op hop => .pure hop
      refine (Typing.Gives.ofExcept (s.gives_bindTable table).and_eq).bind fun t hbind => ?_
      have ht := isLine_texts_of_bindTable hs hbind.1
      have hscope := Table.onLines_scope ht
      have hassignments : ∀ a ∈ assignments, Typing.Gives
          (fun bound => IsLine (bound.1.name ++ " = " ++ bound.2.sql))
          (compileAssignment t [.ofTable t none] a) := by
        intro a ha
        refine gives_isLine_compileAssignment ht hscope (h a.value.sql ?_)
        exact List.mem_map_of_mem (List.mem_append_left _ (List.mem_map_of_mem ha))
      refine (Typing.Gives.mapM hassignments).bind fun bound hbound => ?_
      have hpredicate : ∀ e ∈ predicate, IsLine e.sql := fun e he => h e.sql
        (List.mem_map_of_mem (List.mem_append_right _ (Option.mem_toList.2 he)))
      refine (Table.gives_unbroken_filteredAccess ht hscope hpredicate).bind fun op hop => .pure ?_
      refine .of_input ?_ hop fun _ => rfl
      have hname : IsLine t.name.text := ht _ List.mem_cons_self
      refine isLine_append.2 ⟨isLine_append.2 ⟨hname, by decide⟩, ?_⟩
      exact isLine_commas_iff.2 (List.forall_mem_map.2 hbound)
  | delete table predicate =>
      refine Typing.Gives.bind (P := Operator.Unbroken) ?_ fun op hop => .pure hop
      refine (Typing.Gives.ofExcept (s.gives_bindTable table).and_eq).bind fun t hbind => ?_
      have ht := isLine_texts_of_bindTable hs hbind.1
      have hscope := Table.onLines_scope ht
      have hpredicate : ∀ e ∈ predicate, IsLine e.sql := fun e he => h e.sql
        (List.mem_map_of_mem (Option.mem_toList.2 he))
      refine (Table.gives_unbroken_filteredAccess ht hscope hpredicate).bind fun op hop => .pure ?_
      exact .of_input (ht _ List.mem_cons_self) hop fun _ => rfl
  | _ => exact .throw fun h => by cases h

/-! ## Answers -/

/-- The answer to a statement with a plan has the lines of its operators. -/
theorem exists_execute_of_compile {statement : Statement} {hints : List (Option DataType)}
    {p : Plan} (h : s.compile statement hints = .ok (.plan p)) :
    ∃ before after, (Response.execute s { statement, hints }).1 =
      .ok (.object (before ++ ("operators", .array (p.root.lines.map .string)) :: after)) := by
  have hexecute : s.execute statement hints = .ok (.plan p, s) := by
    rw [execute, h]
  unfold Response.execute
  rw [hexecute]
  exact ⟨[_, _, _, _], _, rfl⟩

/-- So has the explanation of the statement. -/
theorem exists_explanation_of_compile {statement : Statement} {hints : List (Option DataType)}
    {p : Plan} (h : s.compile statement hints = .ok (.plan p)) :
    ∃ before after, (Explanation.ofOutcome statement (s.compile statement hints)).lines =
      before ++ "Operators:" :: p.root.lines.map ("  " ++ ·) ++ after := by
  have hlisting : Explanation.listing "Operators:" "  " p.root.lines =
      "Operators:" :: p.root.lines.map ("  " ++ ·) := by
    have hlines : ¬p.root.lines.isEmpty := by
      simpa using p.root.lines_ne_nil
    rw [Explanation.listing, if_neg hlines]
  have hplan : ∃ before after, Explanation.planLines p =
      before ++ "Operators:" :: p.root.lines.map ("  " ++ ·) ++ after := by
    unfold Explanation.planLines
    rw [hlisting]
    simp only [List.append_assoc]
    exact ⟨_, _, rfl⟩
  obtain ⟨before, after, hplan⟩ := hplan
  rw [h]
  refine ⟨["=== EXPLAIN PLAN ===", "Status: ACCEPTED"] ++ before, after, ?_⟩
  simp only [Explanation.ofOutcome, Explanation.lines, Explanation.status, hplan,
    List.append_assoc]
  rfl

/-- The plan of a statement is shown by the lines of its operators one after the other, in an answer
and in an explanation alike.  An operator has a line that begins with its indentation and its name,
and one more for each line feed in what the plan says of it.  So there is one line for each
operator just if the plan says nothing with a line feed in it, and there is if neither the session
nor the statement has a text with a line feed. -/
theorem compile_lines {s : Session} {statement : Statement} {hints : List (Option DataType)}
    {p : Plan} (h : s.compile statement hints = .ok (.plan p)) :
    (∃ before after, (Response.execute s { statement, hints }).1 =
      .ok (.object (before ++ ("operators", .array (p.root.lines.map .string)) :: after))) ∧
    (∃ before after, (Explanation.ofOutcome statement (s.compile statement hints)).lines =
      before ++ "Operators:" :: p.root.lines.map ("  " ++ ·) ++ after) ∧
    p.root.lines = (p.root.outline 0).flatMap (fun (depth, op) => Text.lines (op.line depth)) ∧
    (∀ depth op, (depth, op) ∈ p.root.outline 0 →
      (Text.lines (op.line depth)).length = op.detail.toList.count '\n' + 1 ∧
        ∃ first more, Text.lines (op.line depth) = (op.opening depth ++ first) :: more) ∧
    (p.root.Listed ↔ ∀ depth op, (depth, op) ∈ p.root.outline 0 → IsLine op.detail) ∧
    ((∀ text ∈ s.shownTexts ++ statement.shownTexts, IsLine text) → p.root.Listed) := by
  have hown : ∀ depth op, (depth, op) ∈ p.root.outline 0 →
      (Text.lines (op.line depth)).length = op.detail.toList.count '\n' + 1 ∧
        ∃ first more, Text.lines (op.line depth) = (op.opening depth ++ first) :: more :=
    fun depth op _ => ⟨op.length_lines_line depth, op.exists_lines_line depth⟩
  have hlisted : p.root.Listed ↔
      ∀ depth op, (depth, op) ∈ p.root.outline 0 → IsLine op.detail := by
    rw [Operator.listed_iff, Prod.forall]
  refine ⟨exists_execute_of_compile h, exists_explanation_of_compile h, p.root.lines_eq, hown,
    hlisted, fun htexts => hlisted.2 fun depth op hop => ?_⟩
  rw [List.forall_mem_append] at htexts
  obtain ⟨-, rows, hrows, rfl⟩ := compile_eq_plan h
  have hgives := gives_unbroken_compileRows htexts.1 htexts.2
  exact (hgives _).of_eq_ok hrows 0 (depth, op) hop

end Session

/-- The query `SELECT 'a\nb' AS x`, in which `\n` stands for a line feed. -/
def brokenQuery : Select :=
  { items := [.expr (.literal (.text "a\nb")) (some "x") none] }

def brokenPlan : Plan :=
  { statement := "SELECT"
    root := .project [⟨.literal (.text "a\nb"), "x"⟩] (.values [[]])
    results := [⟨"x", some .varchar⟩]
    parameters := []
    offset := none
    limit := none }

/-- The line feed breaks the projection in two; without one there are as many lines as operators. -/
theorem compile_lines_brokenQuery :
    (emptySession.compile (.select brokenQuery) [] = .ok (.plan brokenPlan) ∧
      brokenPlan.root.lines = ["Project('a", "b' AS x)", "  Values([])"] ∧
        (brokenPlan.root.outline 0).length = 2 ∧ ¬brokenPlan.root.Listed) ∧
      (∀ text ∈ emptySession.shownTexts ++ (Statement.select sumQuery).shownTexts, IsLine text) ∧
        sumPlan.root.Listed := by
  have hrows : (emptySession.compileRows (.select brokenQuery)).runOn [] =
      .ok ((brokenPlan.root, brokenPlan.results), brokenPlan.parameters) := by with_unfolding_all rfl
  have hbroken : emptySession.compile (.select brokenQuery) [] = .ok (.plan brokenPlan) := by
    have hslots : Session.startSlots (.select brokenQuery) [] = [] := rfl
    rw [Session.compile_eq, hslots, hrows]
    rfl
  obtain ⟨-, -, -, -, hlisted, -⟩ := Session.compile_lines hbroken
  have hwhole : emptySession.compile (.select sumQuery) [] = .ok (.plan sumPlan) := by
    have hslots : Session.startSlots (.select sumQuery) [] = [none] := rfl
    have hrows : (emptySession.compileRows (.select sumQuery)).runOn [none] =
        .ok ((sumPlan.root, sumPlan.results), sumPlan.parameters) := by with_unfolding_all rfl
    rw [Session.compile_eq, hslots, hrows]
    rfl
  obtain ⟨-, -, -, -, -, hwithout⟩ := Session.compile_lines hwhole
  have htexts : ∀ text ∈ emptySession.shownTexts ++ (Statement.select sumQuery).shownTexts,
      IsLine text := by decide
  refine ⟨⟨hbroken, ?_, rfl, ?_⟩, htexts, hwithout htexts⟩
  · decide
  · rw [hlisted]
    intro h
    exact absurd (h 0 brokenPlan.root List.mem_cons_self) (by decide)

end QueryPlanner
