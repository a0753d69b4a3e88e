import QueryPlanner.Catalog.Error
import QueryPlanner.Json.Members
import QueryPlanner.Json.Reader
import QueryPlanner.Log
import QueryPlanner.Session.Basic
import QueryPlanner.Text.Blank

/-!
# Configurations

A configuration is a document with the default schema, the least severity of the log and the place
of the catalog, each of which may be left out.  It is an object; an array of the three, which the
planner takes as well, is not read (see `QueryPlanner.Json.Members`).
-/

namespace QueryPlanner

/-- Why there is no configuration, or why it does not do. -/
inductive ConfigFault where
  | unreadable (reason : String)
  /-- The document is not JSON of the expected shape. -/
  | notADocument
  | blankSchema
  | unknownLevel (level : String)
  /-- Neither the command nor the configuration tells where the catalog is. -/
  | noCatalog
  deriving DecidableEq

/-- The wording of a fault. -/
def ConfigFault.message : ConfigFault → String
  | .unreadable reason => "Failed to read config: " ++ reason
  | .notADocument => "Invalid config JSON: " ++ Json.faultText
  | .blankSchema => "default_schema must not be empty"
  | .unknownLevel level => "Invalid log_level: " ++ Severity.unknownName level
  | .noCatalog => "No catalog given: pass --catalog or set catalog_path"

/-- A configuration. -/
structure Config where
  defaultSchema : String := Session.standardSchema
  /-- The least severity of the log as it was written. -/
  logLevel : String := Severity.info.name
  severity : Severity := .info
  catalogPath : Option String := none

namespace Config

open Json

/-- The members of a document with their defaults; the level is read later. -/
def ofJson? : Json → Option Config
  | .object members => do
      let config : Config := {}
      return {
        defaultSchema := ← orElse? text? members "default_schema" config.defaultSchema
        logLevel := ← orElse? text? members "log_level" config.logLevel
        catalogPath := ← maybe? text? members "catalog_path" }
  | _ => none

/-- Checks the default schema before the level. -/
def check (c : Config) : Except ConfigFault Config :=
  if Text.isBlankText c.defaultSchema then .error .blankSchema
  else
    match Severity.ofName? c.logLevel with
    | some severity => .ok { c with severity }
    | none => .error (.unknownLevel c.logLevel)

/-- The configuration that a text describes. -/
def ofText (text : String) : Except ConfigFault Config :=
  match (parse? text).bind ofJson? with
  | some config => config.check
  | none => .error .notADocument

/-- The configuration in a file, given what reading the file gave. -/
def ofFile (content : Except String String) : Except ConfigFault Config :=
  match content with
  | .ok text => ofText text
  | .error reason => .error (.unreadable reason)

end Config

end QueryPlanner
