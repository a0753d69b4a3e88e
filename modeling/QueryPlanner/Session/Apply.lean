import QueryPlanner.Catalog.Change
import QueryPlanner.Plan.Compile

/-!
# Statements that change a session

Declarations of schemas, tables and indexes give the session another catalog, declarations of views
other views.  A refused statement changes nothing, and a plan made earlier is not touched by what
comes later.
-/

namespace QueryPlanner

/-- Why a session refuses a statement. -/
inductive SessionError where
  | catalog (error : CatalogError)
  | plan (error : PlanError)
  /-- The statement declares nothing. -/
  | notDefinition (statement : String)
  deriving DecidableEq

/-- The wording of an error. -/
def SessionError.message : SessionError → String
  | .catalog error => error.message
  | .plan error => error.text
  | .notDefinition statement => statement ++ " is not a DDL statement"

namespace Session

/-- Changes the catalog. -/
def changeCatalog (s : Session) (change : Change) : Except CatalogError Session :=
  return { s with catalog := ← s.catalog.apply change }

/-- Changes the views. -/
def changeViews (s : Session) (change : Views → Except CatalogError Views) :
    Except CatalogError Session :=
  return { s with views := ← change s.views }

/-- Carries out what a statement declares. -/
def declare (s : Session) (statement : Statement) : Except SessionError Session :=
  let declared : Except CatalogError (Option Session) :=
    match statement.change? s.defaultSchema, statement with
    | some change, _ => some <$> s.changeCatalog change
    | none, .createView name columns query => some <$> s.changeViews fun views => do
        views.add (← View.ofSelect name columns query)
    | none, .dropView name => some <$> s.changeViews (·.remove name)
    | none, _ => .ok none
  match declared with
  | .ok (some s) => .ok s
  | .ok none => .error (.notDefinition statement.text)
  | .error e => .error (.catalog e)

/-- Applies a declaration, which takes no parameters. -/
def apply (s : Session) (statement : Statement) (hints : List (Option DataType)) :
    Except SessionError Session :=
  match statement.category with
  | .manipulation => .error (.notDefinition statement.text)
  | .unsupported => .error (.plan (.unsupported statement.text))
  | .definition =>
      if hints.isEmpty then s.declare statement else .error (.plan .parametersUnsupported)

/-- Compiles a statement and applies it if it is a declaration.  Gives the outcome and the session
in which the next statement is executed. -/
def execute (s : Session) (statement : Statement) (hints : List (Option DataType)) :
    Except SessionError (Outcome × Session) :=
  match s.compile statement hints with
  | .error e => .error (.plan e)
  | .ok (.plan plan) => .ok (.plan plan, s)
  | .ok .notApplicable => return (.notApplicable, ← s.apply statement hints)

end Session

end QueryPlanner
