import QueryPlanner.Catalog.Snapshot
import QueryPlanner.Command.Arguments
import QueryPlanner.Config
import QueryPlanner.Plan.Explain
import QueryPlanner.Session.Apply

/-!
# Running a command

A command reads its configuration, the catalog and one request, in this order, and gives a text
or an error.  Where files, the input and the name of the session come from is left open.
-/

namespace QueryPlanner

/-! ## Errors -/

/-- Why a request is not read. -/
inductive InputFault where
  | unreadable (reason : String)
  | blank
  | notJson
  deriving DecidableEq

/-- Why a command ends without an answer. -/
inductive CommandError where
  | config (fault : ConfigFault)
  | input (fault : InputFault)
  | catalog (error : CatalogError)
  /-- The request is a document, but not a statement. -/
  | notAStatement
  deriving DecidableEq

/-- The wording of a fault. -/
def InputFault.message : InputFault → String
  | .unreadable reason => reason
  | .blank => "Empty input"
  | .notJson => "JSON error: " ++ Json.faultText

namespace CommandError

def code : CommandError → String
  | .config _ => "SQLPLAN_CLI_CONFIG_ERROR"
  | .input _ => "SQLPLAN_CLI_IO_ERROR"
  | .catalog _ => "SQLPLAN_CLI_CATALOG_ERROR"
  | .notAStatement => "SQLPLAN_CLI_INVALID_REQUEST"

/-- The wording of an error, with its code. -/
def message (e : CommandError) : String :=
  e.code ++ ": " ++
    match e with
    | .config fault => fault.message
    | .input fault => fault.message
    | .catalog error => error.message
    | .notAStatement =>
        "Not a statement: data did not match any variant of untagged enum CompileRequest"

end CommandError

/-! ## Documents -/

namespace Plan

/-- The document of a plan. -/
def toJson (p : Plan) : Json :=
  .object [("is_modify", .bool p.changesRows), ("kind", .string p.kind),
    ("limit", Json.ofOption Json.ofWord p.limit), ("offset", Json.ofOption Json.ofWord p.offset),
    ("operators", .array (p.root.lines.map .string)),
    ("parameter_types", .array (p.parameters.map (Json.ofOption DataType.toJson))),
    ("result_columns", .array (p.results.map fun c =>
      .object [("name", .string c.name), ("type", Json.ofOption DataType.toJson c.type)])),
    ("statement_text", .string p.statement)]

end Plan

/-- The document of a collation. -/
def Collation.toJson (c : Collation) : Json :=
  .object [("case_sensitive", .bool c.isCaseSensitive), ("id", .integer c.id.toNat),
    ("name", .string c.name), ("recoverable", .bool c.isRecoverable),
    ("scheme", .string c.scheme)]

/-- The answer to a request. -/
inductive Response where
  | ok (data : Json)
  | rejected (code message : String)

namespace Response

def toJson : Response → Json
  | .ok data => .object [("data", data), ("status", .string "ok")]
  | .rejected code message =>
      .object [("code", .string code), ("message", .string message),
        ("status", .string "error")]

/-- A document on a line of its own. -/
def line (r : Response) : String := r.toJson.text ++ "\n"

/-- The answer to a refused statement. -/
def ofError : SessionError → Response
  | .plan e => .rejected e.code.name e.message
  | e => .rejected "SQLPLAN_DDL_REJECTED" e.message

/-- The answer to an executed statement. -/
def ofOutcome (statement : Statement) : Outcome → Response
  | .plan plan => .ok plan.toJson
  | .notApplicable =>
      .ok (.object [("kind", .string "ddl"), ("statement_text", .string statement.text)])

/-- The answer to executing a request, and the session afterwards. -/
def execute (s : Session) (r : Request) : Response × Session :=
  match s.execute r.statement r.hints with
  | .ok (outcome, next) => (ofOutcome r.statement outcome, next)
  | .error e => (ofError e, s)

/-- The list of collations. -/
def collations : Response := .ok (.array (Collation.registered.map Collation.toJson))

end Response

/-! ## Events -/

namespace Event

/-- The first time that a collation is looked up. -/
def collations : Event := .collationsRegistered Collation.registered.length

/-- What compiling a statement tells. -/
def ofOutcome (session : String) (statement : Statement) : Except PlanError Outcome → Event
  | .ok (.plan plan) => .planCompiled plan.kind plan.root.text session statement.text
  | .ok .notApplicable => .planNotApplicable session statement.text
  | .error e => .planRejected e.code.name e.message session statement.text

/-- What applying a declaration tells. -/
def ofApplied (session : String) (statement : Statement) : Except SessionError Session → Event
  | .ok _ => .definitionApplied session statement.text
  | .error e => .definitionRejected e.message session statement.text

end Event

/-- The changes that are tried when changes are carried out up to the first refused one. -/
def Catalog.tried (c : Catalog) : List Change → List Change
  | [] => []
  | change :: rest =>
      change ::
        match c.apply change with
        | .ok c => c.tried rest
        | .error _ => []

/-- Whether building the catalog of a snapshot looks a collation up. -/
def Snapshot.looksUpCollation (s : Snapshot) : Bool :=
  (Catalog.empty.tried s.changes).any Change.looksUpCollation

/-- Whether executing a request looks a collation up in order to declare something. -/
def Request.looksUpCollation (r : Request) (s : Session) : Bool :=
  r.hints.isEmpty && (r.statement.change? s.defaultSchema).any Change.looksUpCollation

/-! ## Commands -/

/-- Where a command reads from. -/
structure Surroundings (m : Type → Type) where
  /-- The content of a file, or why it cannot be read. -/
  file : String → m (Except String (List UInt8))
  /-- The content of the standard input, or why it cannot be read. -/
  input : m (Except String (List UInt8))
  /-- The name of the session in the log. -/
  session : String

/-- A running command: it keeps a log, which an error does not take back. -/
abbrev Run (m : Type → Type) := ExceptT CommandError (StateT Log m)

namespace Run

variable {m : Type → Type} [Monad m]

/-- Writes an event. -/
def tell (e : Event) : Run m Unit := modify (·.write e)

/-- Tells that collations are looked up, once. -/
def tellCollations (lookedUp : Bool) : Run m Unit :=
  if lookedUp then modify (·.writeOnce Event.collations) else pure ()

/-- Bytes as text, or why there is none. -/
def decode (content : Except String (List UInt8)) : Except String String :=
  match content with
  | .error reason => .error reason
  | .ok bytes =>
      match Text.ofUtf8? bytes with
      | some text => .ok text
      | none => .error "stream did not contain valid UTF-8"

/-- The text in a file, or why there is none.  No file has a name with a NUL in it. -/
def textOf (around : Surroundings m) (path : String) : Run m (Except String String) := do
  if path.toList.contains '\x00' then
    return .error "file name contained an unexpected NUL byte"
  return decode (← around.file path)

/-- A result, or the end of the command. -/
def orElse {α ε : Type} (result : Except ε α) (error : ε → CommandError) : Run m α :=
  match result with
  | .ok a => pure a
  | .error e => throw (error e)

/-- Reads the configuration in a file, or the standard one. -/
def configure (around : Surroundings m) (path : Option String) : Run m Config := do
  let config ← match path with
    | none => pure {}
    | some path => orElse (Config.ofFile (← textOf around path)) .config
  modify ({ · with minimum := config.severity })
  tell (.configLoaded config.defaultSchema config.logLevel (path.getD "defaults"))
  return config

/-- Reads the catalog in a file. -/
def loadCatalog (around : Surroundings m) (path : String) : Run m Catalog := do
  let text ← orElse (← textOf around path) fun reason =>
    .catalog (.malformed (.unreadableFile path reason))
  tellCollations ((Snapshot.ofText? text).any (·.looksUpCollation))
  let catalog ← orElse (Catalog.ofText text) .catalog
  tell (.catalogLoaded path catalog.tables.length)
  return catalog

/-- Opens a session on the catalog that the command or its configuration names. -/
def openSession (around : Surroundings m) (catalog config : Option String) : Run m Session := do
  let config ← configure around config
  match catalog.or config.catalogPath with
  | none => throw (.config .noCatalog)
  | some path => return { catalog := ← loadCatalog around path,
                          defaultSchema := config.defaultSchema }

/-- Reads the request. -/
def readRequest (around : Surroundings m) : Run m Request := do
  let text ← orElse (decode (← around.input)) fun reason => .input (.unreadable reason)
  if Text.isBlankText text then throw (.input .blank)
  match Json.parseValue? text with
  | none => throw (.input .notJson)
  | some j =>
      match Request.ofJson? j with
      | none => throw .notAStatement
      | some request => return request

/-- Compiles a request, applies it if it is a declaration, and gives the answer as a document. -/
def compile (around : Surroundings m) (s : Session) (r : Request) : Run m String := do
  let outcome := s.compile r.statement r.hints
  tell (.ofOutcome around.session r.statement outcome)
  if let .ok .notApplicable := outcome then
    tellCollations (r.looksUpCollation s)
    tell (.ofApplied around.session r.statement (s.apply r.statement r.hints))
  return (Response.execute s r).1.line

/-- Explains the plan of a request. -/
def explain (around : Surroundings m) (s : Session) (r : Request) : Run m String := do
  let outcome := s.compile r.statement r.hints
  tell (.ofOutcome around.session r.statement outcome)
  return (Explanation.ofOutcome r.statement outcome).text

/-- Lists the collations. -/
def collations (around : Surroundings m) (config : Option String) : Run m String := do
  discard (configure around config)
  tellCollations true
  return Response.collations.line

/-- Carries a command out. -/
def command (around : Surroundings m) : Command → Run m String
  | .compile catalog config => do
      let s ← openSession around catalog config
      compile around s (← readRequest around)
  | .explain catalog config => do
      let s ← openSession around catalog config
      explain around s (← readRequest around)
  | .collations config => collations around config

end Run

/-! ## The program -/

/-- What the program leaves behind. -/
structure Result where
  exitCode : UInt8
  /-- The text on the standard output. -/
  output : String := ""
  /-- The lines on the standard error output. -/
  messages : List String := []

/-- The name and the number of the program. -/
def programVersion : String := "sqlplan 0.1.0"

/-- The short description of the arguments. -/
def usage : String :=
  String.join (["Usage: sqlplan <COMMAND>",
    "  compile [--catalog <CATALOG>] [--config <CONFIG>]",
    "  explain [--catalog <CATALOG>] [--config <CONFIG>]",
    "  collations [--config <CONFIG>]"].map (· ++ "\n"))

namespace Invocation

/-- Carries out what the arguments amount to. -/
def result {m : Type → Type} [Monad m] (around : Surroundings m) : Invocation → m Result
  | .version => return { exitCode := 0, output := programVersion ++ "\n" }
  | .help => return { exitCode := 0, output := usage }
  | .usageError => return { exitCode := 2, messages := Text.lines usage }
  | .run command => do
      let (answer, log) ← (Run.command around command).run.run {}
      match answer with
      | .ok output => return { exitCode := 0, output, messages := log.lines }
      | .error e => return { exitCode := 1, messages := log.lines ++ [e.message] }

end Invocation

end QueryPlanner
