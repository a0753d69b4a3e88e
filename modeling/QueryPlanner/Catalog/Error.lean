import QueryPlanner.DataType

/-!
# Errors of the catalog
-/

namespace QueryPlanner

/-- How messages speak of a document that is not read. -/
def Json.faultText : String := "<json>"

/-- What is wrong with the declarations of a snapshot or of a table. -/
inductive DeclarationFault where
  /-- The document is not JSON of the expected shape. -/
  | notADocument
  /-- The file cannot be read. -/
  | unreadableFile (path reason : String)
  /-- A collation on a column that holds no texts. -/
  | collationOn (column : String) (type : DataType)
  | unknownCollation (name : String)
  deriving DecidableEq

/-- Why a change to the catalog or to the views of a session is refused. -/
inductive CatalogError where
  | duplicateSchema (name : String)
  | unknownSchema (name : String)
  | schemaNotEmpty (name : String)
  | duplicateTable (name : String)
  | unknownTable (name : String)
  | duplicateColumn (table column : String)
  | unknownColumn (table column : String)
  | duplicateIndex (name : String)
  | emptyIndex (name : String)
  | unknownIndex (name : String)
  | duplicateView (name : String)
  | unknownView (name : String)
  /-- A view whose query has parameters. -/
  | parameterizedView (name : String)
  | malformed (fault : DeclarationFault)
  deriving DecidableEq

/-- The wording of a fault. -/
def DeclarationFault.message : DeclarationFault → String
  | .notADocument => Json.faultText
  | .unreadableFile path reason => "failed to read " ++ path ++ ": " ++ reason
  | .collationOn column type =>
      "column '" ++ column ++ "' is " ++ type.name ++ " and cannot carry a collation"
  | .unknownCollation name => "Unknown collation '" ++ name ++ "'"

/-- The wording of an error. -/
def CatalogError.message : CatalogError → String
  | .duplicateSchema name => "Schema '" ++ name ++ "' already exists"
  | .unknownSchema name => "Schema '" ++ name ++ "' does not exist"
  | .schemaNotEmpty name => "Schema '" ++ name ++ "' is not empty"
  | .duplicateTable name => "Table '" ++ name ++ "' already exists"
  | .unknownTable name => "Table '" ++ name ++ "' does not exist"
  | .duplicateColumn table column =>
      "Column '" ++ column ++ "' declared twice in table '" ++ table ++ "'"
  | .unknownColumn table column =>
      "Column '" ++ column ++ "' does not exist in table '" ++ table ++ "'"
  | .duplicateIndex name => "Index '" ++ name ++ "' already exists"
  | .emptyIndex name => "Index '" ++ name ++ "' must declare at least one column"
  | .unknownIndex name => "Index '" ++ name ++ "' does not exist"
  | .duplicateView name => "View '" ++ name ++ "' already exists"
  | .unknownView name => "View '" ++ name ++ "' does not exist"
  | .parameterizedView name => "View '" ++ name ++ "' must not contain parameters"
  | .malformed fault => "Malformed catalog snapshot: " ++ fault.message

end QueryPlanner
