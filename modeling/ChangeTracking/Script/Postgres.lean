import ChangeTracking.Script.Artifact
import ChangeTracking.Script.Statement
import ChangeTracking.Text.Chars

/-!
# PostgreSQL triggers

A function that branches on the operation, and a trigger that calls it for all enabled
operations.  Values computed once are kept in locals; the header is opened by the first
change record of an invocation.
-/

namespace ChangeTracking.Script.Postgres

open Plan (Expr Identity Operation TrackedColumn TriggerSet)
open Sql (Dialect)

/-- The variable that holds the identifier of the header. -/
def headerName : String := "changelog_id"

/-- The local that holds the identifier of the header. -/
def headerLocal : String := Dialect.postgresLocal headerName

/-- Find or create the header, once for each invocation. -/
def openHeader (d : Dialect) (set : TriggerSet) : String :=
  let key := Expr.variable Identity.entityKeyName
  "IF " ++ headerLocal ++ " IS NULL THEN\n    SELECT " ++ d.columnName "ID" ++ " INTO "
    ++ headerLocal ++ " FROM " ++ d.tableName set.headerTable ++ " WHERE "
    ++ (whereClause d (historyFilters set key)).sent
    ++ ";\n    IF " ++ headerLocal ++ " IS NULL THEN\n        " ++ headerLocal ++ " := ("
    ++ d.freshId ++ ")::text;\n        "
    ++ (insertHeader d set (.ofText headerLocal) key).sent
    ++ ";\n    END IF;\nEND IF;"

/-- Record one column under its guard. -/
def recordColumn (d : Dialect) (set : TriggerSet) (op : Operation) (column : TrackedColumn) :
    String :=
  let identity := (set.identity .record).fromLocals
  "IF " ++ (d.renderGuard (column.guarded op)).sent ++ " THEN\n"
    ++ Text.indent 1 (openHeader d set) ++ "\n    "
    ++ (insertChange d set column op identity (.variable headerName)).sent ++ ";\nEND IF;"

def branch (d : Dialect) (set : TriggerSet) (op : Operation) : String :=
  if set.purges op then
    statementLines
      ((purgeStatements d set (set.identity .record).fromLocals.entityKey).map (·.sent))
  else
    "\n".intercalate (set.columns.map (recordColumn d set op))

/-- The branches for the operations, the first of which opens the chain. -/
def branches (d : Dialect) (set : TriggerSet) (keyword : String) : List Operation → List String
  | [] => []
  | op :: ops =>
      (keyword ++ " TG_OP = '" ++ op.event ++ "' THEN\n" ++ Text.indent 1 (branch d set op))
        :: branches d set "ELSIF" ops

/-- The computed values that are there, with their locals. -/
def computed (set : TriggerSet) : List (String × Expr) :=
  ((set.identity .record).values.filter fun v => !v.2.isNull).map fun v =>
    (Dialect.postgresLocal v.1, v.2)

def declarations (set : TriggerSet) : List String :=
  ["rec RECORD;"] ++ (computed set).map (fun v => v.1 ++ " TEXT;") ++ [headerLocal ++ " TEXT;"]

def body (d : Dialect) (set : TriggerSet) (ops : List Operation) : String :=
  let assignments := (computed set).map fun v => v.1 ++ " := " ++ (d.render v.2).sent ++ ";"
  "IF " ++ (d.renderGuard set.skipGuard).sent
    ++ " THEN\n    RETURN NULL;\nEND IF;\nIF TG_OP = 'DELETE' THEN\n    rec := OLD;\nELSE\n"
    ++ "    rec := NEW;\nEND IF;\n" ++ "\n".intercalate assignments ++ "\n"
    ++ "\n".intercalate (branches d set "IF" ops) ++ "\nEND IF;\nRETURN NULL;"

def function (d : Dialect) (set : TriggerSet) (ops : List Operation) (name : String) : String :=
  "CREATE OR REPLACE FUNCTION " ++ name ++ "() RETURNS TRIGGER AS $$\nDECLARE\n"
    ++ Text.indent 1 ("\n".intercalate (declarations set)) ++ "\nBEGIN\n"
    ++ Text.indent 1 (body d set ops) ++ "\nEND;\n$$ LANGUAGE plpgsql;"

/-- The function and the trigger for some operations. -/
def pair (d : Dialect) (set : TriggerSet) (ops : List Operation) (stem : String) : Artifact :=
  let functionName := Text.sqlIdentifier (stem ++ "_func")
  let name := stem ++ "_trigger"
  { name := name
    entity := some set.entity
    source :=
      function d set ops functionName ++ "\n\nCREATE TRIGGER " ++ Text.sqlIdentifier name
        ++ " AFTER " ++ " OR ".intercalate (ops.map Operation.event) ++ " ON "
        ++ d.tableName set.entity ++ " FOR EACH ROW EXECUTE FUNCTION " ++ functionName ++ "();"
    kind := .functionTriggerPair }

/-- The pair for one operation alone. -/
def trigger (d : Dialect) (set : TriggerSet) (op : Operation) : Artifact :=
  pair d set [op] (operationName d set op)

/-- The pair for all enabled operations; without operations there is none. -/
def combined (d : Dialect) (set : TriggerSet) : List Artifact :=
  if set.operations.isEmpty then [] else [pair d set set.operations (d.fold set.stem)]

end ChangeTracking.Script.Postgres
