import QueryPlanner.Json.Text
import QueryPlanner.Text.Ascii

/-!
# The log

Events and their lines.  A line is a JSON object that names the event and its severity first and
then the details in the order of their names.  Events below the severity of the log are left out.
-/

namespace QueryPlanner

/-- How serious an event is. -/
inductive Severity where
  | trace
  | info
  | warn
  | error
  | fatal
  deriving DecidableEq

namespace Severity

def all : List Severity := [.trace, .info, .warn, .error, .fatal]

def name : Severity → String
  | .trace => "TRACE"
  | .info => "INFO"
  | .warn => "WARN"
  | .error => "ERROR"
  | .fatal => "FATAL"

/-- The place of a severity, the least serious first. -/
def rank : Severity → Nat
  | .trace => 0
  | .info => 1
  | .warn => 2
  | .error => 3
  | .fatal => 4

def compare (a b : Severity) : Ordering := Ord.compare a.rank b.rank

/-- The severity with a name, in any case of its letters. -/
def ofName? (s : String) : Option Severity := all.find? (·.name == Text.asciiUppercase s)

/-- How messages speak of a name that no severity has. -/
def unknownName (s : String) : String := "unknown log level '" ++ Text.asciiUppercase s ++ "'"

/-- Whether an event is written to a log with a least severity. -/
def isWritten (s minimum : Severity) : Bool := minimum.rank ≤ s.rank

@[simp] theorem ofName?_name (s : Severity) : ofName? s.name = some s := by
  cases s <;> rfl

end Severity

/-- What is worth telling about a run. -/
inductive Event where
  | configLoaded (defaultSchema logLevel source : String)
  /-- A collation is looked up for the first time. -/
  | collationsRegistered (count : Nat)
  | catalogLoaded (path : String) (tables : Nat)
  | planCompiled (kind operators session statement : String)
  | planNotApplicable (session statement : String)
  | planRejected (code reason session statement : String)
  | definitionApplied (session statement : String)
  | definitionRejected (reason session statement : String)
  deriving DecidableEq

namespace Event

def name : Event → String
  | .configLoaded .. => "CONFIG_LOADED"
  | .collationsRegistered _ => "COLLATIONS_REGISTERED"
  | .catalogLoaded .. => "CATALOG_LOADED"
  | .planCompiled .. => "PLAN_COMPILED"
  | .planNotApplicable .. => "PLAN_NOT_APPLICABLE"
  | .planRejected .. => "PLAN_REJECTED"
  | .definitionApplied .. => "DDL_APPLIED"
  | .definitionRejected .. => "DDL_REJECTED"

def severity : Event → Severity
  | .configLoaded .. | .collationsRegistered _ | .catalogLoaded .. | .definitionApplied .. => .info
  | .planCompiled .. | .planNotApplicable .. => .trace
  | .planRejected .. | .definitionRejected .. => .warn

/-- The details of an event, in the order of their names. -/
def details : Event → List (String × String)
  | .configLoaded defaultSchema logLevel source =>
      [("default_schema", defaultSchema), ("log_level", logLevel), ("source", source)]
  | .collationsRegistered count => [("count", toString count)]
  | .catalogLoaded path tables => [("path", path), ("tables", toString tables)]
  | .planCompiled kind operators session statement =>
      [("kind", kind), ("operator", operators), ("session_id", session),
        ("statement", statement)]
  | .planNotApplicable session statement =>
      [("session_id", session), ("statement", statement)]
  | .planRejected code reason session statement =>
      [("code", code), ("reason", reason), ("session_id", session), ("statement", statement)]
  | .definitionApplied session statement =>
      [("session_id", session), ("statement", statement)]
  | .definitionRejected reason session statement =>
      [("reason", reason), ("session_id", session), ("statement", statement)]

/-- The line of an event, without the end of the line. -/
def line (e : Event) : String :=
  Json.text (.object (("event", .string e.name) :: ("severity", .string e.severity.name) ::
    e.details.map fun (name, value) => (name, .string value)))

end Event

/-- The events of a run, the first one first. -/
structure Log where
  minimum : Severity := .info
  events : List Event := []

namespace Log

def write (l : Log) (e : Event) : Log := { l with events := l.events ++ [e] }

/-- Writes an event unless it is there. -/
def writeOnce (l : Log) (e : Event) : Log := if e ∈ l.events then l else l.write e

/-- The lines of the events that are serious enough. -/
def lines (l : Log) : List String :=
  (l.events.filter fun e => e.severity.isWritten l.minimum).map Event.line

end Log

end QueryPlanner
