import QueryPlanner.Proofs.Binding.Alone
import QueryPlanner.Proofs.Plan.Inputs

/-!
# A reference to a view stands for its query

The body of a view is bound with the views around it in mind, typed once when its columns are shown
and once more when its operators are built.  Neither matters: where a query reads a view, its input
is the plan of the query of the view, and what it sees are the results of that plan, under the names
that the view declares.

Main statement: `compile_views`.
-/

namespace QueryPlanner

/-- A column that a source shows, as a result. -/
def SourceColumn.result (c : SourceColumn) : ResultColumn := ⟨c.name, c.type⟩

namespace View

/-- The view keeps the names of results, or has one for each of so many. -/
def CanName (w : View) (count : Nat) : Prop := w.columns = [] ∨ w.columns.length = count

/-- Results under the names that a view declares for them, if it does. -/
def rename (w : View) (results : List ResultColumn) : List ResultColumn :=
  if w.columns = [] then results
  else List.zipWith (fun name result => { result with name }) w.columns results

end View

/-! ## Results without placeholders -/

/-- Typing a query without placeholders types each of its results on its own. -/
theorem BoundSelect.closedTypes_of_resolve {b : BoundSelect} {results : List ResultColumn}
    {slots : Slots} (h : b.resolve.runOn [] = .ok (results, slots)) :
    slots = [] ∧ results.length = b.results.length ∧
      ∀ (i : Nat) item, b.results[i]? = some item → ∃ type, item.expr.closedType = .ok type ∧
        results[i]? = some ⟨item.name, type⟩ := by
  have hkeeps := Typing.rules_keeps fun _ => True
  have hslots : slots = [] := by
    have hlength := (hkeeps.resolveQuery (q := b) (fun _ _ => trivial) [] _ _ h).1
    exact List.eq_nil_of_length_eq_zero hlength
  rw [resolve_eq, Typing.runOn_bind] at h
  obtain ⟨⟨_, before⟩, hwhere, h⟩ := bind_eq_ok.1 h
  rw [Typing.runOn_bind] at h
  obtain ⟨⟨shown, middle⟩, hresults, h⟩ := bind_eq_ok.1 h
  rw [Typing.runOn_bind] at h
  obtain ⟨_, -, h⟩ := bind_eq_ok.1 h
  cases h
  have hbefore : before = [] := by
    have hwhereKeeps := hkeeps.resolveWhere (q := b) fun _ _ _ _ => trivial
    exact List.eq_nil_of_length_eq_zero (hwhereKeeps [] _ _ hwhere).1
  subst hbefore
  have heach := Typing.runOn_mapM_nil
    (fun i => @hkeeps.resolveResult _ _ i fun _ _ => trivial) b.results
  have hrun : (b.resolveResults.runOn []).map Prod.fst = .ok shown := by
    rw [hresults]
    rfl
  obtain ⟨hlength, hplaces⟩ := getElem?_of_mapM (heach.symm.trans hrun)
  refine ⟨hslots, hlength, fun i item hitem => ?_⟩
  obtain ⟨result, hresult, htyped⟩ := hplaces i item hitem
  obtain ⟨⟨_, after⟩, hitemRun, rfl⟩ := map_eq_ok.1 htyped
  rw [Typing.runOn_bind] at hitemRun
  obtain ⟨⟨type, rest⟩, htype, hitemRun⟩ := bind_eq_ok.1 hitemRun
  cases hitemRun
  exact ⟨type, map_eq_ok.2 ⟨_, htype, rfl⟩, hresult⟩

/-- The query of all columns of a source. -/
def BoundSelect.all (source : BoundSource) : BoundSelect :=
  { sources := [source]
    results := (Scope.references [source]).map Scope.columnResult
    predicate := none
    order := []
    offset := none
    limit := none }

/-- References to columns have the types of the columns. -/
theorem BoundSelect.resolve_all (source : BoundSource) (slots : Slots) :
    (all source).resolve.runOn slots =
      .ok ((Scope.references [source]).map fun c => ⟨c.name, c.type⟩, slots) := by
  have hresults (columns : List BoundColumn) :
      ((columns.map Scope.columnResult).mapM fun item => do
          return (⟨item.name, ← item.expr.resolve⟩ : ResultColumn)) =
        (pure (columns.map fun c => ⟨c.name, c.type⟩) : Typing (List ResultColumn)) := by
    induction columns with
    | nil => rfl
    | cons c columns ih =>
        have hfirst : (Scope.columnResult c).expr.resolve = pure c.type := by
          rw [Scope.columnResult, BoundExpr.resolve]
        rw [List.map_cons, List.mapM_cons, ih, hfirst]
        rfl
  rw [resolve_eq, resolveResults, all, hresults]
  rfl

namespace View

variable {w : View} {aliasName : Option String} {b : BoundSelect} {source : BoundSource}
  {results : List ResultColumn} {slots : Slots}

theorem length_rename (hnames : w.CanName results.length) :
    (w.rename results).length = results.length := by
  unfold rename
  split
  · rfl
  next hcolumns =>
    have hlength := hnames.resolve_left hcolumns
    rw [List.length_zipWith, hlength, Nat.min_self]

theorem getElem?_rename (hnames : w.CanName results.length) {i : Nat} {result : ResultColumn}
    (hresult : results[i]? = some result) :
    (w.rename results)[i]? = some ⟨w.columns[i]?.getD result.name, result.type⟩ := by
  unfold rename
  split
  next hcolumns =>
    rw [hcolumns]
    exact hresult
  next hcolumns =>
    have hlength := hnames.resolve_left hcolumns
    obtain ⟨hlt, -⟩ := List.getElem?_eq_some_iff.1 hresult
    have hname : w.columns[i]? = some w.columns[i] := List.getElem?_eq_getElem (hlength ▸ hlt)
    rw [List.getElem?_zipWith, hresult, hname]
    rfl

theorem canName_of_source (h : w.source aliasName b = .ok source) :
    w.CanName b.results.length := (View.source_eq_ok_iff.1 h).1

/-- What a source shows of a view are the results of its query, under the names of the view. -/
theorem result_of_source (h : w.source aliasName b = .ok source)
    (hb : b.resolve.runOn [] = .ok (results, slots)) :
    source.columns.map SourceColumn.result = w.rename results := by
  obtain ⟨-, hlength, htypes⟩ := BoundSelect.closedTypes_of_resolve hb
  obtain ⟨hshown, hshows⟩ := View.shows_of_source h
  have hnames : w.CanName results.length := hlength ▸ canName_of_source h
  have hrenamed := length_rename hnames
  refine List.ext_getElem? fun i => ?_
  rw [List.getElem?_map]
  cases hitem : b.results[i]? with
  | none =>
      have hout : b.results.length ≤ i := List.getElem?_eq_none_iff.1 hitem
      rw [List.getElem?_eq_none (by omega), List.getElem?_eq_none (by omega)]
      rfl
  | some item =>
      obtain ⟨type, htype, hcolumn⟩ := hshows i item hitem
      obtain ⟨type', htype', hresult⟩ := htypes i item hitem
      obtain rfl : type = type' := Except.ok.inj (htype.symm.trans htype')
      rw [hcolumn, getElem?_rename hnames hresult]
      rfl

/-- A view stands for a query whose results it can name. -/
theorem exists_source (hnames : w.CanName b.results.length)
    (hb : b.resolve.runOn [] = .ok (results, slots)) (aliasName : Option String) :
    ∃ source, w.source aliasName b = .ok source := by
  obtain ⟨-, -, htypes⟩ := BoundSelect.closedTypes_of_resolve hb
  obtain ⟨types, htypes⟩ : ∃ types, resultTypes b.results = .ok types := by
    rw [resultTypes_eq_mapM]
    refine exists_mapM fun item hitem => ?_
    obtain ⟨i, hi⟩ := List.getElem?_of_mem hitem
    obtain ⟨type, htype, -⟩ := htypes i item hi
    exact ⟨type, htype⟩
  exact ⟨_, View.source_eq_ok_iff.2 ⟨hnames, types, htypes, rfl⟩⟩

end View

/-! ## Plans of queries -/

namespace Session

variable {s : Session} {q : Select} {hints : List (Option DataType)}

/-- A query has a plan if it is bound, typed and has operators. -/
theorem runOn_compileSelect {slots : Slots} {b : BoundSelect} {results : List ResultColumn}
    {after : Slots} {op : Operator} (hb : s.bindSelect q = .ok b)
    (hresults : b.resolve.runOn slots = .ok (results, after)) (hop : b.operator = .ok op) :
    (s.compileSelect q).runOn slots = .ok ((op, results), after) := by
  unfold compileSelect
  rw [Typing.runOn_bind, Typing.runOn_ofExcept, hb]
  show (b.resolve >>= _).runOn slots = _
  rw [Typing.runOn_bind, hresults]
  show (Typing.ofExcept b.operator >>= _).runOn after = _
  rw [Typing.runOn_bind, Typing.runOn_ofExcept, hop]
  rfl

/-- What the plan of a query is made of. -/
theorem exists_of_compile_select {p : Plan} (h : s.compile (.select q) hints = .ok (.plan p)) :
    ∃ b, s.bindSelect q = .ok b ∧ b.operator = .ok p.root ∧
      b.resolve.runOn (startSlots (.select q) hints) = .ok (p.results, p.parameters) := by
  obtain ⟨-, rows, hrows, rfl⟩ := compile_eq_plan h
  have hcompile : (s.compileSelect q).runOn (startSlots (.select q) hints) = .ok rows := hrows
  unfold compileSelect at hcompile
  rw [Typing.runOn_bind, Typing.runOn_ofExcept] at hcompile
  obtain ⟨_, hbind, hcompile⟩ := bind_eq_ok.1 hcompile
  obtain ⟨b, hb, rfl⟩ := map_eq_ok.1 hbind
  rw [Typing.runOn_bind] at hcompile
  obtain ⟨⟨results, after⟩, hresults, hcompile⟩ := bind_eq_ok.1 hcompile
  rw [Typing.runOn_bind, Typing.runOn_ofExcept] at hcompile
  obtain ⟨_, hoperator, hcompile⟩ := bind_eq_ok.1 hcompile
  obtain ⟨op, hop, rfl⟩ := map_eq_ok.1 hoperator
  cases hcompile
  exact ⟨b, hb, hop, hresults⟩

theorem startSlots_of_parameterFree (hq : q.parameterCount = 0) :
    startSlots (.select q) hints = [] := by
  have hcount : (Statement.select q).parameterCount = 0 := hq
  refine List.eq_nil_of_length_eq_zero ?_
  rw [Slots.length_ofHints, hcount]

/-- A query without placeholders has the same plan whatever types are known. -/
theorem compile_of_parameterFree (hq : q.parameterCount = 0) {b : BoundSelect}
    {results : List ResultColumn} {slots : Slots} {op : Operator} (hb : s.bindSelect q = .ok b)
    (hresults : b.resolve.runOn [] = .ok (results, slots)) (hop : b.operator = .ok op)
    (hints : List (Option DataType)) :
    s.compile (.select q) hints =
      .ok (.plan ((Statement.select q).plan ((op, results), slots))) := by
  have hcount : (Statement.select q).parameterCount = 0 := hq
  have hfixed : (Statement.select q).fixedOutcome? = none := by
    unfold Statement.fixedOutcome?
    rw [hcount]
    rfl
  have hrows : (s.compileRows (.select q)).runOn [] = .ok ((op, results), slots) :=
    runOn_compileSelect hb hresults hop
  rw [compile_eq, hfixed, startSlots_of_parameterFree hq, hrows]
  rfl

/-! ## References to views -/

/-- Where a query with a plan reads a view, the query of the view has a plan, whatever types are
known. -/
theorem exists_body {p : Plan} {b : BoundSelect} (hb : s.bindSelect q = .ok b)
    (hop : b.operator = .ok p.root) {n : Nat} {r : TableRef} (hr : q.sources[n]? = some r)
    {w : View} (hview : s.view? r.name = some w) :
    ∃ source body, b.sources[n]? = some source ∧
      (∀ hints, s.compile (.select w.query) hints = .ok (.plan body)) ∧
      p.root.scope[n]? = some body.root ∧ w.CanName body.results.length ∧
      source.columns.map SourceColumn.result = w.rename body.results := by
  obtain ⟨-, hplaces⟩ := getElem?_of_mapM (Select.bindWith_eq_ok hb).sources
  obtain ⟨source, hplace, hbound⟩ := hplaces n r hr
  obtain ⟨input, hinput, hoperator⟩ := (BoundSelect.scope_operator hop).2 n source hplace
  obtain ⟨bw, hbw, hsource⟩ := (bindSource_view_iff hview).1 hbound
  rw [View.operator_of_source hsource] at hoperator
  obtain ⟨_, hdiscard, hinputOp⟩ := bind_eq_ok.1 hoperator
  obtain ⟨⟨results, slots⟩, hresults, -⟩ := map_eq_ok.1 hdiscard
  have hlength := (BoundSelect.closedTypes_of_resolve hresults).2.1
  refine ⟨source, (Statement.select w.query).plan ((input, results), slots), hplace, ?_, hinput,
    ?_, View.result_of_source hsource hresults⟩
  · exact compile_of_parameterFree w.parameterFree hbw hresults hinputOp
  · show w.CanName results.length
    rw [hlength]
    exact View.canName_of_source hsource

/-- All columns of what a name stands for can be selected. -/
theorem bindSelect_all {name : String} {source : BoundSource}
    (h : s.bindSource [] { name := { name } } = .ok source) :
    s.bindSelect (.all [name]) = .ok (.all source) := by
  have hscope : Select.bindSources (s.bindSource []) [] (Select.all [name]).sources =
      .ok [source] := by
    show s.bindSource [] { name := { name } } >>= _ = _
    rw [h]
    rfl
  have hitems : (Select.all [name]).items.mapM (Scope.bindItem [source]) =
      .ok [(Scope.references [source]).map Scope.columnResult] := rfl
  have hbind : Select.bindIn [source] (.all [name]) = .ok (.all source) := by
    rw [Select.bindIn, hitems, ok_bind, List.flatten_singleton]
    rfl
  rw [bindSelect, Select.bindWith_eq, hscope]
  exact hbind

/-- All columns of a view can be selected if its query has a plan whose results it can name. -/
theorem exists_compile_all {name : String} {w : View} (hview : s.view? { name } = some w)
    {body : Plan} (hbody : s.compile (.select w.query) hints = .ok (.plan body))
    (hnames : w.CanName body.results.length) (hints' : List (Option DataType)) :
    ∃ p, s.compile (.select (.all [name])) hints' = .ok (.plan p) := by
  obtain ⟨b, hb, hop, hresults⟩ := exists_of_compile_select hbody
  rw [startSlots_of_parameterFree w.parameterFree] at hresults
  have hlength := (BoundSelect.closedTypes_of_resolve hresults).2.1
  obtain ⟨source, hsource⟩ := View.exists_source (hlength ▸ hnames) hresults none
  have hbound : s.bindSource [] { name := { name } } = .ok source :=
    (bindSource_view_iff hview).2 ⟨b, hb, hsource⟩
  have hinputs : sourceOperators [] 0 [source] = .ok [body.root] := by
    rw [sourceOperators, View.operator_of_source hsource, hresults]
    show (b.operator >>= _) = _
    rw [hop]
    rfl
  have hoperator : (BoundSelect.all source).operator =
      .ok (.project (BoundSelect.all source).results body.root) :=
    BoundSelect.operator_eq_ok.2 ⟨[body.root], hinputs, rfl⟩
  exact ⟨_, compile_of_parameterFree rfl (bindSelect_all hbound)
    (BoundSelect.resolve_all source []) hoperator hints'⟩

/-- A view is a macro.  Where a query with a plan reads a view, the query of the view has a plan
whatever types are known: its root is the input of the query there, and its results, under the names
that the view declares if it does, are what the query sees.  All columns of a view can be selected
if and only if its query has a plan and the view keeps the names of the results or has as many. -/
theorem compile_views (s : Session) :
    (∀ q hints p, s.compile (.select q) hints = .ok (.plan p) →
      ∃ b, s.bindSelect q = .ok b ∧ p.root.scope.length = q.sources.length ∧
        ∀ (n : Nat) r w, q.sources[n]? = some r → s.view? r.name = some w →
          ∃ source body, b.sources[n]? = some source ∧
            (∀ hints, s.compile (.select w.query) hints = .ok (.plan body)) ∧
            p.root.scope[n]? = some body.root ∧ w.CanName body.results.length ∧
            source.columns.map SourceColumn.result = w.rename body.results) ∧
    ∀ w ∈ s.views.items, ∀ name, Text.lowercase name = Named.key w → ∀ hints hints',
      (∃ p, s.compile (.select (.all [name])) hints = .ok (.plan p)) ↔
        ∃ body, s.compile (.select w.query) hints' = .ok (.plan body) ∧
          w.CanName body.results.length := by
  refine ⟨fun q hints p h => ?_, fun w hw name hname hints hints' => ⟨?_, ?_⟩⟩
  · obtain ⟨b, hb, hop, -⟩ := exists_of_compile_select h
    have hscope := (BoundSelect.scope_operator hop).1
    have hsources := (getElem?_of_mapM (Select.bindWith_eq_ok hb).sources).1
    exact ⟨b, hb, hscope.trans hsources, fun n r w hr hview => exists_body hb hop hr hview⟩
  · rintro ⟨p, h⟩
    obtain ⟨b, hb, hop, -⟩ := exists_of_compile_select h
    have hview : s.view? { name } = some w := view?_eq_some_iff.2 ⟨hw, rfl, hname⟩
    have hfirst : (Select.all [name]).sources[0]? = some { name := { name } } := rfl
    obtain ⟨-, body, -, hbody, -, hnames, -⟩ := exists_body hb hop hfirst hview
    exact ⟨body, hbody hints', hnames⟩
  · rintro ⟨body, hbody, hnames⟩
    have hview : s.view? { name } = some w := view?_eq_some_iff.2 ⟨hw, rfl, hname⟩
    exact exists_compile_all hview hbody hnames hints

end Session

/-- The plan of the query of a `constantView`. -/
def constantPlan : Plan :=
  { statement := "SELECT"
    root := .project [⟨.literal (.integer 1), "n"⟩] (.values [[]])
    results := [⟨"n", some .bigint⟩]
    parameters := []
    offset := none
    limit := none }

theorem compile_views_referringSession :
    ∃ body p, referringSession.compile (.select (constantView "a").query) [] = .ok (.plan body) ∧
      referringSession.compile (.select (.all ["A"])) [] = .ok (.plan p) ∧
      p.root.scope[0]? = some body.root := by
  have hviews := Session.compile_views referringSession
  have hfind : referringSession.views.find? "A" = some (constantView "a") := by rfl
  have hmem := Directory.mem_of_find? hfind
  have hkey := (Directory.key_of_find? hfind).symm
  have hbody : referringSession.compile (.select (constantView "a").query) [] =
      .ok (.plan constantPlan) := by with_unfolding_all rfl
  obtain ⟨p, hp⟩ := (hviews.2 _ hmem "A" hkey [] []).2 ⟨constantPlan, hbody, .inl rfl⟩
  obtain ⟨b, -, -, hinputs⟩ := hviews.1 _ _ p hp
  obtain ⟨source, body', -, hbody', hinput, -⟩ :=
    hinputs 0 { name := { name := "A" } } (constantView "a") rfl hfind
  cases hbody.symm.trans (hbody' [])
  exact ⟨constantPlan, p, hbody, hp, hinput⟩

end QueryPlanner
