import ChangeTracking.Plan.TriggerSet
import ChangeTracking.Sql.Term

/-!
# Statements on the history tables

The inserts and deletes by which every trigger writes the history: a header for each
tracked key, change records that refer to it, and the removal of both.
-/

namespace ChangeTracking.Script

open Plan (Expr Identity Operation TrackedColumn TriggerSet)
open Sql (Dialect Fragment)

/-- The columns of the table of change records, in the order of an insert. -/
def changeColumns : List String :=
  ["ID", "attribute", "valueChangedFrom", "valueChangedTo", "valueChangedFromLabel",
    "valueChangedToLabel", "entity", "entityKey", "rootEntity", "rootEntityKey", "objectID",
    "rootObjectID", "valueDataType", "modification", "createdAt", "createdBy",
    "transactionID", "changeLog_ID"]

/-- The columns of the table of headers, in the order of an insert. -/
def headerColumns : List String :=
  ["ID", "entity", "entityKey", "serviceEntity", "createdAt", "createdBy"]

/-- Column names separated by commas. -/
def columnList (d : Dialect) (columns : List String) : String :=
  ", ".intercalate (columns.map d.columnName)

/-- The values that find the history of the set's entity for a key. -/
def historyFilters (set : TriggerSet) (key : Expr) : List (String × Expr) :=
  [("entity", .text set.entity), ("entityKey", key)]

/-- The identifier of the header for a key. -/
def headerId (set : TriggerSet) (key : Expr) : Expr :=
  .lookup set.headerTable "ID" (historyFilters set key)

/-- The condition that columns have the given values. -/
def whereClause (d : Dialect) (filters : List (String × Expr)) : Fragment :=
  .join " AND " (filters.map fun f => .ofText (d.columnName f.1 ++ " = ") ++ d.render f.2)

/-- The name shown for the set's entity. -/
def serviceName (set : TriggerSet) : String := set.service.getD set.entity

/-- The values of a header in the order of its columns. -/
def headerValues (d : Dialect) (set : TriggerSet) (id : Fragment) (key : Expr) :
    List Fragment :=
  [id, .ofText (Text.sqlLiteral set.entity), d.render key,
    .ofText (Text.sqlLiteral (serviceName set)), .ofText d.now, d.currentUser]

/-- The values of a change record in the order of its columns. -/
def changeValues (d : Dialect) (set : TriggerSet) (column : TrackedColumn) (op : Operation)
    (identity : Identity) (header : Expr) : List Fragment :=
  let transition := column.transition op
  let rootEntity : Expr :=
    match identity.rootEntity with
    | some entity => .text entity
    | none => .null
  [.ofText d.freshId, .ofText (Text.sqlLiteral column.name), d.render transition.before,
    d.render transition.after, d.render transition.labelBefore,
    d.render transition.labelAfter, .ofText (Text.sqlLiteral set.entity),
    d.render identity.entityKey, d.render rootEntity, d.render identity.rootKey,
    d.render identity.objectId, d.render identity.rootObjectId,
    .ofText (Text.sqlLiteral column.type), .ofText (Text.sqlLiteral op.modification),
    .ofText d.now, d.currentUser, d.transactionId, d.render header]

def insertRow (d : Dialect) (table : String) (columns : List String)
    (values : List Fragment) : Fragment :=
  .ofText ("INSERT INTO " ++ d.tableName table ++ " (" ++ columnList d columns ++ ") VALUES (")
    ++ .join ", " values ++ .ofText ")"

def insertHeader (d : Dialect) (set : TriggerSet) (id : Fragment) (key : Expr) : Fragment :=
  insertRow d set.headerTable headerColumns (headerValues d set id key)

/-- The insert of a change record. -/
def insertChange (d : Dialect) (set : TriggerSet) (column : TrackedColumn) (op : Operation)
    (identity : Identity) (header : Expr) : Fragment :=
  insertRow d set.changesTable changeColumns (changeValues d set column op identity header)

/-- The deletes that remove the history of a key: change records first, then the header. -/
def purgeStatements (d : Dialect) (set : TriggerSet) (key : Expr) : List Fragment :=
  [set.changesTable, set.headerTable].map fun table =>
    .ofText ("DELETE FROM " ++ d.tableName table ++ " WHERE ")
      ++ whereClause d (historyFilters set key)

/-- The name of the trigger of one operation. -/
def operationName (d : Dialect) (set : TriggerSet) (op : Operation) : String :=
  d.fold (set.stem ++ "_" ++ op.suffix)

/-- Statements, each ended by a semicolon, on lines of their own. -/
def statementLines (statements : List String) : String :=
  "\n".intercalate (statements.map (· ++ ";"))

end ChangeTracking.Script
