import QueryPlanner.Proofs.Catalog.Loading
import QueryPlanner.Proofs.Except

/-!
# Steps of a session

A session may be changed in place, by computations that leave behind what they did before they
failed.  A step takes a statement through one of two entries: executing, which compiles first, and
applying, which takes declarations only.  The catalog is changed on a copy, which is put in its
place in the end; a view is looked for before another one is added under its name, but it is taken
out before it is known to have been there.

In place or not, a step ends in the same way (`run_apply`, `run_execute`), and a refused one leaves
the session as it was.  What else a step may change depends on its statement (`Framed`).

Main statement: `steps_framed`.  It says all this of one step, and of a run of steps that the
session in the end is the one that its successful declarations lead to.
-/

namespace QueryPlanner

/-- Nothing is taken out under a name that is not there. -/
theorem Directory.erase_of_find?_eq_none {α : Type} [Named α] {d : Directory α} {name : String}
    (h : d.find? name = none) : d.erase name = d := by
  apply Directory.ext
  refine List.filter_eq_self.2 fun a ha => ?_
  simpa using List.find?_eq_none.1 h a ha

/-- Whether a statement declares a view, or that there is one no longer. -/
def Statement.declaresView : Statement → Bool
  | .createView .. | .dropView _ => true
  | _ => false

namespace Session

variable {α : Type} {s : Session} {statement : Statement} {hints : List (Option DataType)}

/-! ## Changes in place -/

/-- Computations that change a session in place.  What they did before they failed stays done. -/
abbrev InPlace := EStateM SessionError Session

namespace InPlace

/-- An answer of the catalog. -/
def ofCatalog : Except CatalogError α → InPlace α
  | .ok a => pure a
  | .error e => throw (.catalog e)

/-- An answer of the planner. -/
def ofPlanner : Except PlanError α → InPlace α
  | .ok a => pure a
  | .error e => throw (.plan e)

/-- Changes a copy of the catalog, which then takes the place of the catalog. -/
def changeCatalog (change : Change) : InPlace Unit := do
  let copy := (← get).catalog
  let catalog ← ofCatalog (copy.apply change)
  modify fun s => { s with catalog }

/-- Adds a view if there is none of its name. -/
def addView (view : View) : InPlace Unit := do
  if (← get).views.contains view.name then throw (.catalog (.duplicateView view.name))
  modify fun s => { s with views := s.views.insert view }

/-- Takes a view out, and complains afterwards if there was none. -/
def removeView (name : String) : InPlace Unit := do
  let removed := (← get).views.find? name
  modify fun s => { s with views := s.views.erase name }
  if removed.isNone then throw (.catalog (.unknownView name))

/-- Carries out what a statement declares. -/
def declare (statement : Statement) : InPlace Unit := do
  match statement with
  | .createView name columns query => addView (← ofCatalog (View.ofSelect name columns query))
  | .dropView name => removeView name
  | _ =>
      match statement.change? (← get).defaultSchema with
      | some change => changeCatalog change
      | none => throw (.notDefinition statement.text)

/-- Applies a declaration, which takes no parameters. -/
def apply (statement : Statement) (hints : List (Option DataType)) : InPlace Unit := do
  match statement.category with
  | .manipulation => throw (.notDefinition statement.text)
  | .unsupported => throw (.plan (.unsupported statement.text))
  | .definition =>
      if !hints.isEmpty then throw (.plan .parametersUnsupported)
      declare statement

/-- Compiles a statement, and applies it if it has no plan. -/
def execute (statement : Statement) (hints : List (Option DataType)) : InPlace Outcome := do
  let outcome ← ofPlanner ((← get).compile statement hints)
  if let .notApplicable := outcome then apply statement hints
  return outcome

end InPlace

/-! ## Refusals leave nothing behind -/

/-- The end of a computation in place that has left the session alone if it has failed. -/
def ending (s : Session) :
    Except SessionError (α × Session) → EStateM.Result SessionError Session α
  | .ok (a, s') => .ok a s'
  | .error e => .error e s

theorem ending_eq_error {x : Except SessionError (α × Session)} {e : SessionError} {s' : Session}
    (h : s.ending x = .error e s') : x = .error e ∧ s' = s := by
  cases x <;> cases h
  exact ⟨rfl, rfl⟩

theorem ending_eq_ok {x : Except SessionError (α × Session)} {a : α} {s' : Session}
    (h : s.ending x = .ok a s') : x = .ok (a, s') := by
  cases x <;> cases h
  rfl

/-- The end of a computation in place that answers nothing. -/
def ended (s : Session) (x : Except SessionError Session) :
    EStateM.Result SessionError Session Unit :=
  s.ending (x.map fun s' => ((), s'))

theorem run_changeCatalog (change : Change) :
    (InPlace.changeCatalog change).run s = s.ended (s.withCatalog (s.catalog.apply change)) := by
  show (InPlace.ofCatalog (s.catalog.apply change) >>= _).run s = _
  cases s.catalog.apply change <;> rfl

/-- The session with the views that calls have made, or the error that they ended in. -/
def withViews (s : Session) : Except CatalogError Views → Except SessionError Session
  | .ok views => .ok { s with views }
  | .error e => .error (.catalog e)

theorem run_addView (view : View) :
    (InPlace.addView view).run s = s.ended (s.withViews (s.views.add view)) := by
  unfold Views.add
  show (if s.views.contains view.name then _ else _ : InPlace Unit).run s = _
  split <;> rfl

theorem run_removeView (name : String) :
    (InPlace.removeView name).run s = s.ended (s.withViews (s.views.remove name)) := by
  have hrun : (InPlace.removeView name).run s =
      if (s.views.find? name).isNone then
        .error (.catalog (.unknownView name)) { s with views := s.views.erase name }
      else .ok () { s with views := s.views.erase name } := by
    show (if (s.views.find? name).isNone then _ else _ : InPlace Unit).run _ = _
    split <;> rfl
  rw [hrun]
  unfold Views.remove Directory.contains
  cases hfind : s.views.find? name with
  | some view => rfl
  | none =>
      -- what was taken out was not there
      rw [Directory.erase_of_find?_eq_none hfind]
      rfl

theorem declare_createView (name : String) (columns : List String) (query : Select) :
    s.declare (.createView name columns query) =
      s.withViews (View.ofSelect name columns query >>= s.views.add) := by
  unfold declare changeViews
  dsimp only [Statement.change?]
  cases View.ofSelect name columns query >>= s.views.add <;> rfl

theorem declare_dropView (name : String) :
    s.declare (.dropView name) = s.withViews (s.views.remove name) := by
  unfold declare changeViews
  dsimp only [Statement.change?]
  cases s.views.remove name <;> rfl

theorem run_declare (statement : Statement) :
    (InPlace.declare statement).run s = s.ended (s.declare statement) := by
  cases hchange : statement.change? s.defaultSchema with
  | some change =>
      rw [declare_of_change? hchange, ← run_changeCatalog]
      cases statement <;> cases hchange <;> rfl
  | none =>
      cases statement with
      | createView name columns query =>
          rw [declare_createView]
          show (InPlace.ofCatalog (View.ofSelect name columns query) >>= _).run s = _
          cases View.ofSelect name columns query with
          | error e => rfl
          | ok view => exact run_addView view
      | dropView name =>
          rw [declare_dropView, ← run_removeView]
          rfl
      | _ => first | rfl | cases hchange

theorem run_apply (statement : Statement) (hints : List (Option DataType)) :
    (InPlace.apply statement hints).run s = s.ended (s.apply statement hints) := by
  unfold InPlace.apply Session.apply
  cases statement.category with
  | manipulation => rfl
  | unsupported => rfl
  | definition =>
      cases hints with
      | nil => exact run_declare statement
      | cons hint hints => rfl

/-- What is applied after compiling answers as the compiler did. -/
theorem run_execute_of_notApplicable (h : s.compile statement hints = .ok .notApplicable) :
    (InPlace.execute statement hints).run s =
      match (InPlace.apply statement hints).run s with
      | .ok _ s' => .ok .notApplicable s'
      | .error e s' => .error e s' := by
  show (InPlace.ofPlanner (s.compile statement hints) >>= _).run s = _
  rw [h]
  show EStateM.bind (InPlace.apply statement hints) _ s = _
  unfold EStateM.bind EStateM.run
  cases InPlace.apply statement hints s <;> rfl

theorem run_execute (statement : Statement) (hints : List (Option DataType)) :
    (InPlace.execute statement hints).run s = s.ending (s.execute statement hints) := by
  unfold Session.execute
  cases hcompile : s.compile statement hints with
  | error e =>
      show (InPlace.ofPlanner (s.compile statement hints) >>= _).run s = _
      rw [hcompile]
      rfl
  | ok outcome =>
      cases outcome with
      | plan plan =>
          show (InPlace.ofPlanner (s.compile statement hints) >>= _).run s = _
          rw [hcompile]
          rfl
      | notApplicable =>
          rw [run_execute_of_notApplicable hcompile, run_apply]
          cases s.apply statement hints <;> rfl

/-! ## Kinds of statements -/

/-- A declaration is one of the catalog or one of views. -/
theorem category_eq_definition_iff (defaultSchema : String) :
    statement.category = .definition ↔
      (statement.change? defaultSchema).isSome ∨ statement.declaresView := by
  cases statement <;> simp [Statement.category, Statement.change?, Statement.declaresView]

/-- Executing a statement on rows is compiling it. -/
theorem execute_of_manipulation (h : statement.category = .manipulation) :
    s.execute statement hints =
      match s.compile statement hints with
      | .ok outcome => .ok (outcome, s)
      | .error e => .error (.plan e) := by
  unfold execute
  cases hcompile : s.compile statement hints with
  | error e => rfl
  | ok outcome =>
      cases outcome with
      | plan plan => rfl
      | notApplicable =>
          unfold compile at hcompile
          rw [h] at hcompile
          obtain ⟨plan, -, hplan⟩ := bind_eq_ok.1 hcompile
          cases hplan

theorem execute_of_definition (h : statement.category = .definition) :
    s.execute statement hints = (s.apply statement hints).map fun s' => (.notApplicable, s') := by
  unfold execute compile
  rw [h]
  rfl

theorem execute_of_unsupported (h : statement.category = .unsupported) :
    s.execute statement hints = .error (.plan (.unsupported statement.text)) := by
  unfold execute compile
  rw [h]

theorem apply_of_manipulation (h : statement.category = .manipulation) :
    s.apply statement hints = .error (.notDefinition statement.text) := by
  unfold apply
  rw [h]

theorem apply_of_definition (h : statement.category = .definition) :
    s.apply statement hints =
      if hints.isEmpty then s.declare statement else .error (.plan .parametersUnsupported) := by
  unfold apply
  rw [h]

theorem apply_of_unsupported (h : statement.category = .unsupported) :
    s.apply statement hints = .error (.plan (.unsupported statement.text)) := by
  unfold apply
  rw [h]

/-- What is declared of schemas, tables and indexes changes the catalog only. -/
theorem frame_of_change? {change : Change} {s' : Session}
    (hchange : statement.change? s.defaultSchema = some change)
    (h : s.declare statement = .ok s') :
    s.catalog.apply change = .ok s'.catalog ∧ s' = { s with catalog := s'.catalog } := by
  rw [declare_of_change? hchange] at h
  cases happly : s.catalog.apply change with
  | error e =>
      rw [happly] at h
      cases h
  | ok catalog =>
      rw [happly] at h
      cases h
      exact ⟨rfl, rfl⟩

theorem eq_of_withViews {x : Except CatalogError Views} {s' : Session}
    (h : s.withViews x = .ok s') : s' = { s with views := s'.views } := by
  cases x <;> cases h
  rfl

/-- What is declared of views changes the views only. -/
theorem frame_of_declaresView {s' : Session} (hview : statement.declaresView)
    (h : s.declare statement = .ok s') : s' = { s with views := s'.views } := by
  cases statement with
  | createView name columns query =>
      rw [declare_createView] at h
      exact eq_of_withViews h
  | dropView name =>
      rw [declare_dropView] at h
      exact eq_of_withViews h
  | _ => cases hview

/-! ## Steps -/

/-- The ways in which a session takes a statement. -/
inductive Entry where
  | execute
  | apply

/-- A statement that a session is given, with the types of its placeholders. -/
structure Step where
  entry : Entry
  statement : Statement
  hints : List (Option DataType)

namespace Step

/-- What a step does to the session. -/
def call (step : Step) : InPlace Unit :=
  match step.entry with
  | .execute => discard (InPlace.execute step.statement step.hints)
  | .apply => InPlace.apply step.statement step.hints

/-- The session that a step gives. -/
def result (step : Step) (s : Session) : Except SessionError Session :=
  match step.entry with
  | .execute => Prod.snd <$> s.execute step.statement step.hints
  | .apply => s.apply step.statement step.hints

variable {step : Step} {s' : Session}

theorem run_call (step : Step) (s : Session) : step.call.run s = s.ended (step.result s) := by
  unfold call result
  cases step.entry with
  | apply => exact run_apply step.statement step.hints
  | execute =>
      have hrun : (discard (InPlace.execute step.statement step.hints)).run s =
          match (InPlace.execute step.statement step.hints).run s with
          | .ok _ s' => .ok () s'
          | .error e s' => .error e s' := by
        show EStateM.map _ (InPlace.execute step.statement step.hints) s = _
        unfold EStateM.map EStateM.run
        cases InPlace.execute step.statement step.hints s <;> rfl
      dsimp only
      rw [hrun, run_execute]
      cases s.execute step.statement step.hints <;> rfl

theorem result_eq_ok (h : step.call.run s = .ok () s') : step.result s = .ok s' := by
  rw [run_call] at h
  obtain ⟨s'', hresult, heq⟩ := map_eq_ok.1 (ending_eq_ok h)
  cases heq
  exact hresult

/-- A refused step leaves the session as it was. -/
theorem eq_of_call_error {e : SessionError} (h : step.call.run s = .error e s') : s' = s := by
  rw [run_call] at h
  exact (ending_eq_error h).2

/-- Both entries take a declaration in the same way. -/
theorem result_of_definition (h : step.statement.category = .definition) :
    step.result s = s.apply step.statement step.hints := by
  unfold result
  cases step.entry with
  | apply => rfl
  | execute =>
      dsimp only
      rw [execute_of_definition h]
      cases s.apply step.statement step.hints <;> rfl

theorem result_of_unsupported (h : step.statement.category = .unsupported) :
    step.result s = .error (.plan (.unsupported step.statement.text)) := by
  unfold result
  cases step.entry with
  | apply => exact apply_of_unsupported h
  | execute =>
      dsimp only
      rw [execute_of_unsupported h]
      rfl

/-- A statement on rows changes nothing. -/
theorem eq_of_manipulation (h : step.statement.category = .manipulation)
    (hresult : step.result s = .ok s') : s' = s := by
  obtain ⟨entry, statement, hints⟩ := step
  cases entry with
  | apply => cases (apply_of_manipulation h).symm.trans hresult
  | execute =>
      obtain ⟨answer, hexecute, hanswer⟩ := map_eq_ok.1 hresult
      rw [execute_of_manipulation h] at hexecute
      split at hexecute
      · cases hexecute
        exact hanswer.symm
      · cases hexecute

/-- A declaration that is accepted has been carried out, and had no hints. -/
theorem declare_eq_ok (h : step.statement.category = .definition)
    (hresult : step.result s = .ok s') : s.declare step.statement = .ok s' := by
  rw [result_of_definition h, apply_of_definition h] at hresult
  split at hresult
  · exact hresult
  · cases hresult

end Step

/-- A statement is refused through both entries with an error of code `unsupported`, and the
session is left as it was. -/
def Unsupported (s : Session) (statement : Statement) (hints : List (Option DataType))
    (e : PlanError) : Prop :=
  e.code = .unsupported ∧
    ∀ entry, (Step.mk entry statement hints).call.run s = .error (.plan e) s

/-- What a statement may change of a session, through either entry. -/
structure Framed (s : Session) (statement : Statement) (hints : List (Option DataType)) :
    Prop where
  /-- In place, a statement is executed as it is on a session that is not changed in place. -/
  execute_eq : (InPlace.execute statement hints).run s = s.ending (s.execute statement hints)
  apply_eq : (InPlace.apply statement hints).run s = s.ended (s.apply statement hints)
  /-- Declarations are those of schemas, tables and indexes, and those of views. -/
  kinds : statement.category = .definition ↔
    (statement.change? s.defaultSchema).isSome ∨ statement.declaresView
  /-- A refused statement leaves the session as it was. -/
  refused : ∀ entry e s', (Step.mk entry statement hints).call.run s = .error e s' → s' = s
  /-- A statement on rows is answered as by the compiler, and nothing changes. -/
  manipulation : statement.category = .manipulation →
    (InPlace.apply statement hints).run s = .error (.notDefinition statement.text) s ∧
      (InPlace.execute statement hints).run s =
        match s.compile statement hints with
        | .ok outcome => .ok outcome s
        | .error e => .error (.plan e) s
  /-- Both entries lead to the same session or to the same error. -/
  definition : statement.category = .definition →
    (InPlace.execute statement hints).run s =
      match (InPlace.apply statement hints).run s with
      | .ok _ s' => .ok .notApplicable s'
      | .error e s' => .error e s'
  /-- What is declared of schemas, tables and indexes changes the catalog only. -/
  catalog : ∀ change, statement.change? s.defaultSchema = some change →
    ∀ entry s', (Step.mk entry statement hints).call.run s = .ok () s' →
      s.catalog.apply change = .ok s'.catalog ∧ s' = { s with catalog := s'.catalog }
  /-- What is declared of views changes the views only. -/
  views : statement.declaresView → ∀ entry s',
    (Step.mk entry statement hints).call.run s = .ok () s' → s' = { s with views := s'.views }
  hinted : statement.category = .definition → hints ≠ [] →
    s.Unsupported statement hints .parametersUnsupported
  unsupported : statement.category = .unsupported →
    s.Unsupported statement hints (.unsupported statement.text)

theorem framed (s : Session) (statement : Statement) (hints : List (Option DataType)) :
    s.Framed statement hints where
  execute_eq := run_execute statement hints
  apply_eq := run_apply statement hints
  kinds := category_eq_definition_iff s.defaultSchema
  refused entry e s' h := Step.eq_of_call_error h
  manipulation h := by
    refine ⟨?_, ?_⟩
    · rw [run_apply, apply_of_manipulation h]
      rfl
    · rw [run_execute, execute_of_manipulation h]
      cases s.compile statement hints <;> rfl
  definition h := by
    rw [run_execute, execute_of_definition h, run_apply]
    cases s.apply statement hints <;> rfl
  catalog change hchange entry s' h := by
    have hdefinition := category_of_change? hchange
    exact frame_of_change? hchange (Step.declare_eq_ok hdefinition (Step.result_eq_ok h))
  views hview entry s' h := by
    have hdefinition := (category_eq_definition_iff s.defaultSchema).2 (.inr hview)
    exact frame_of_declaresView hview (Step.declare_eq_ok hdefinition (Step.result_eq_ok h))
  hinted h hhints := by
    refine ⟨rfl, fun entry => ?_⟩
    have hempty : ¬hints.isEmpty := fun hempty => hhints (List.isEmpty_iff.1 hempty)
    rw [Step.run_call, Step.result_of_definition h, apply_of_definition h, if_neg hempty]
    rfl
  unsupported h := by
    refine ⟨rfl, fun entry => ?_⟩
    rw [Step.run_call, Step.result_of_unsupported h]
    rfl

/-! ## Runs of steps -/

/-- The session that a computation leaves behind, whether it has failed or not. -/
def leftBehind : EStateM.Result SessionError Session Unit → Session
  | .ok _ s | .error _ s => s

/-- The session that steps leave behind.  A refused step does not keep the next ones from being
taken. -/
def run (s : Session) : List Step → Session
  | [] => s
  | step :: steps => (leftBehind (step.call.run s)).run steps

/-- The declarations that are accepted among steps. -/
def declarations (s : Session) : List Step → List Step
  | [] => []
  | step :: steps =>
      let rest := (leftBehind (step.call.run s)).declarations steps
      match step.call.run s, step.statement.category with
      | .ok _ _, .definition => step :: rest
      | _, _ => rest

/-- The accepted declarations of a run, taken alone, are accepted again, and end in the same
session. -/
theorem forM_declarations (s : Session) (steps : List Step) :
    ((s.declarations steps).forM Step.call).run s = .ok () (s.run steps) := by
  induction steps generalizing s with
  | nil => rfl
  | cons step steps ih =>
      unfold declarations run
      cases hcall : step.call.run s with
      | error e s' =>
          cases Step.eq_of_call_error hcall
          exact ih s
      | ok a s' =>
          have hresult := Step.result_eq_ok hcall
          cases hcategory : step.statement.category with
          | manipulation =>
              cases Step.eq_of_manipulation hcategory hresult
              exact ih s
          | unsupported =>
              rw [Step.result_of_unsupported hcategory] at hresult
              cases hresult
          | definition =>
              show EStateM.bind step.call (fun _ => (s'.declarations steps).forM Step.call) s = _
              unfold EStateM.bind
              rw [show step.call s = .ok a s' from hcall]
              exact ih s'

/-- One step is atomic and changes only what its statement is about; and after a run of steps, the
session is the one that the accepted declarations among them lead to on their own. -/
theorem steps_framed :
    (∀ (s : Session) (statement : Statement) (hints : List (Option DataType)),
      s.Framed statement hints) ∧
      ∀ (s : Session) (steps : List Step),
        ((s.declarations steps).forM Step.call).run s = .ok () (s.run steps) :=
  ⟨framed, forM_declarations⟩

end Session

end QueryPlanner
