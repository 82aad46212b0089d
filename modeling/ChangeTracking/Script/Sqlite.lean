import ChangeTracking.Script.Artifact
import ChangeTracking.Script.Statement
import ChangeTracking.Text.Chars

/-!
# SQLite triggers

One trigger for each operation.  There are no locals, so every value is spelled out in
every statement; the skip guard is the trigger's own condition, and each change record is
inserted under its guard.
-/

namespace ChangeTracking.Script.Sqlite

open Plan (Guard Operation TrackedColumn TriggerSet)
open Sql (Dialect Fragment)

/-- Insert the header if there is none, and only when something is recorded. -/
def openHeader (d : Dialect) (set : TriggerSet) (op : Operation) : String :=
  let key := (set.identity op.subject).entityKey
  let values := headerValues d set (.ofText d.freshId) key
  let table := d.tableName set.headerTable
  "INSERT INTO " ++ table ++ " (" ++ columnList d headerColumns ++ ")\nSELECT "
    ++ (Fragment.join ", " values).sent
    ++ "\nWHERE NOT EXISTS (SELECT 1 FROM " ++ table ++ " WHERE "
    ++ (whereClause d (historyFilters set key)).sent
    ++ ")\n  AND " ++ (d.renderGuard ((set.anyChange op).bind op.subject)).sent ++ ";"

/-- Insert the change record of one column under its guard. -/
def recordColumn (d : Dialect) (set : TriggerSet) (op : Operation) (column : TrackedColumn) :
    String :=
  let identity := set.identity op.subject
  let values := changeValues d set column op identity (headerId set identity.entityKey)
  "INSERT INTO " ++ d.tableName set.changesTable ++ " (" ++ columnList d changeColumns
    ++ ")\nSELECT " ++ (Fragment.join ", " values).sent
    ++ "\nWHERE " ++ (d.renderGuard ((column.guarded op).bind op.subject)).sent ++ ";"

def body (d : Dialect) (set : TriggerSet) (op : Operation) : List String :=
  if set.purges op then
    (purgeStatements d set (set.identity op.subject).entityKey).map (·.sent ++ ";")
  else
    openHeader d set op :: set.columns.map (recordColumn d set op)

def trigger (d : Dialect) (set : TriggerSet) (op : Operation) : Artifact :=
  let name := operationName d set op
  { name := name
    entity := some set.entity
    source :=
      "CREATE TRIGGER " ++ name ++ " AFTER " ++ op.event ++ "\nON " ++ d.tableName set.entity
        ++ "\nFOR EACH ROW WHEN " ++ (d.renderGuard (.negate set.skipGuard)).sent
        ++ "\nBEGIN\n" ++ "\n".intercalate ((body d set op).map (Text.indent 1)) ++ "\nEND;"
    kind := .sqlTrigger }

end ChangeTracking.Script.Sqlite
