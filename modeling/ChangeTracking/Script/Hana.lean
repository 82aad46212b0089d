import ChangeTracking.Script.Artifact
import ChangeTracking.Script.Statement
import ChangeTracking.Text.Chars

/-!
# SAP HANA triggers

One trigger file for each operation, and two procedures that all of them call: one finds
or creates the header, one writes a change record.  Arguments and conditions must be
locals, so values and guards are selected into locals first.
-/

namespace ChangeTracking.Script.Hana

open Plan (Expr Guard Operation TrackedColumn TriggerSet)
open Sql (Dialect Fragment)

/-- The procedure that finds or creates a header. -/
def openName : String := "CHANGELOG_OPEN"

/-- The procedure that writes a change record. -/
def appendName : String := "CHANGELOG_APPEND"

def textType : String := "NVARCHAR(5000)"

def idType : String := "NVARCHAR(36)"

/-- The parameters of the second procedure that become columns of the change record. -/
def recordParameters : List String :=
  ["ATTRIBUTE", "VALUE_FROM", "VALUE_TO", "LABEL_FROM", "LABEL_TO", "ENTITY", "ENTITY_KEY",
    "ROOT_ENTITY", "ROOT_ENTITY_KEY", "OBJECT_ID", "ROOT_OBJECT_ID", "VALUE_DATA_TYPE",
    "MODIFICATION"]

/-- A local of a trigger body. -/
def localName (name : String) : String := Text.upperCase name

/-- Select a guard into a local as one or zero. -/
def selectFlag (d : Dialect) (guard : Guard) (target : String) : String :=
  "SELECT CASE WHEN " ++ (d.renderGuard guard).sent ++ " THEN 1 ELSE 0 END INTO " ++ target
    ++ " FROM DUMMY;"

/-- The arguments with which one column is recorded. -/
def appendArguments (d : Dialect) (set : TriggerSet) (op : Operation)
    (column : TrackedColumn) : List Fragment :=
  let identity := (set.identity op.subject).fromLocals
  let rootEntity :=
    match identity.rootEntity with
    | some entity => Text.sqlLiteral entity
    | none => "NULL"
  [d.localValue "changelog_id", .ofText (Text.sqlLiteral column.name),
    d.localValue "value_from", d.localValue "value_to", d.localValue "label_from",
    d.localValue "label_to", .ofText (Text.sqlLiteral set.entity),
    d.render identity.entityKey, .ofText rootEntity, d.render identity.rootKey,
    d.render identity.objectId, d.render identity.rootObjectId,
    .ofText (Text.sqlLiteral column.type), .ofText (Text.sqlLiteral op.modification)]

/-- Open the header, once for each invocation. -/
def openHeader (d : Dialect) (set : TriggerSet) (op : Operation) : String :=
  let key := (set.identity op.subject).fromLocals.entityKey
  "IF :CHANGELOG_ID IS NULL THEN\n    CALL " ++ Text.sqlIdentifier openName ++ "("
    ++ Text.sqlLiteral set.entity ++ ", " ++ (d.render key).sent ++ ", "
    ++ Text.sqlLiteral (serviceName set) ++ ", CHANGELOG_ID);\nEND IF;"

/-- Record one column under its guard. -/
def recordColumn (d : Dialect) (set : TriggerSet) (op : Operation) (column : TrackedColumn) :
    String :=
  let transition := (column.transition op).toList.map fun e => (d.render e).sent
  let recorded :=
    openHeader d set op ++ "\nSELECT " ++ ", ".intercalate transition
      ++ " INTO VALUE_FROM, VALUE_TO, LABEL_FROM, LABEL_TO FROM DUMMY;\nCALL "
      ++ Text.sqlIdentifier appendName ++ "("
      ++ (Fragment.join ", " (appendArguments d set op column)).sent ++ ");"
  selectFlag d (column.guarded op) "RECORDED" ++ "\nIF :RECORDED = 1 THEN\n"
    ++ Text.indent 1 recorded ++ "\nEND IF;"

/-- The computed values that are there, with their locals. -/
def computed (set : TriggerSet) (op : Operation) : List (String × Expr) :=
  ((set.identity op.subject).values.filter fun v => !v.2.isNull).map fun v =>
    (localName v.1, v.2)

def recordDeclarations : List String :=
  ["DECLARE CHANGELOG_ID " ++ idType ++ " = NULL;", "DECLARE RECORDED INTEGER;"]
    ++ ["VALUE_FROM", "VALUE_TO", "LABEL_FROM", "LABEL_TO"].map fun name =>
      "DECLARE " ++ name ++ " " ++ textType ++ ";"

def declarations (set : TriggerSet) (op : Operation) : List String :=
  (computed set op).map (fun v => "DECLARE " ++ v.1 ++ " " ++ textType ++ ";")
    ++ (if set.purges op then [] else recordDeclarations)
    ++ ["DECLARE SKIPPED INTEGER;"]

def statements (d : Dialect) (set : TriggerSet) (op : Operation) : List String :=
  (computed set op).map (fun v =>
      "SELECT " ++ (d.render v.2).sent ++ " INTO " ++ v.1 ++ " FROM DUMMY;")
    ++ if set.purges op then
        (purgeStatements d set (set.identity op.subject).fromLocals.entityKey).map
          (·.sent ++ ";")
      else set.columns.map (recordColumn d set op)

/-- The rows that an operation has. -/
def referencing : Operation → String
  | .create => "NEW ROW NEW"
  | .update => "OLD ROW OLD, NEW ROW NEW"
  | .delete => "OLD ROW OLD"

def trigger (d : Dialect) (set : TriggerSet) (op : Operation) : Artifact :=
  let name := operationName d set op
  let body :=
    "\n".intercalate (declarations set op) ++ "\n" ++ selectFlag d set.skipGuard "SKIPPED"
      ++ "\nIF :SKIPPED = 0 THEN\n"
      ++ Text.indent 1 ("\n".intercalate (statements d set op)) ++ "\nEND IF;"
  { name := name
    entity := some set.entity
    source :=
      "TRIGGER " ++ Text.sqlIdentifier name ++ " AFTER " ++ op.event ++ "\nON "
        ++ d.tableName set.entity ++ "\nREFERENCING " ++ referencing op
        ++ "\nFOR EACH ROW\nBEGIN\n" ++ Text.indent 1 body ++ "\nEND"
    kind := .hdbTrigger }

def procedure (name : String) (parameters : List String) (body : String) : Artifact where
  name := name
  entity := none
  source :=
    "PROCEDURE " ++ Text.sqlIdentifier name ++ " (\n"
      ++ Text.indent 1 (",\n".intercalate parameters)
      ++ "\n)\nLANGUAGE SQLSCRIPT\nSQL SECURITY INVOKER\nAS\nBEGIN\n" ++ Text.indent 1 body
      ++ "\nEND"
  kind := .hdbProcedure

/-- The procedure that finds or creates a header. -/
def openProcedure (d : Dialect) (settings : Settings) : Artifact :=
  let table := d.tableName settings.headerTable
  let values :=
    [":CHANGELOG_ID", ":ENTITY", ":ENTITY_KEY", ":SERVICE_ENTITY", d.now, d.currentUser.sent]
  procedure openName
    ["IN ENTITY " ++ textType, "IN ENTITY_KEY " ++ textType, "IN SERVICE_ENTITY " ++ textType,
      "OUT CHANGELOG_ID " ++ idType]
    ("SELECT MAX(" ++ d.columnName "ID" ++ ") INTO CHANGELOG_ID FROM " ++ table
      ++ "\n    WHERE " ++ d.columnName "entity" ++ " = :ENTITY AND "
      ++ d.columnName "entityKey"
      ++ " = :ENTITY_KEY;\nIF :CHANGELOG_ID IS NULL THEN\n    CHANGELOG_ID = " ++ d.freshId
      ++ ";\n    INSERT INTO " ++ table ++ " (" ++ columnList d headerColumns ++ ") VALUES ("
      ++ ", ".intercalate values ++ ");\nEND IF;")

/-- The procedure that writes a change record. -/
def appendProcedure (d : Dialect) (settings : Settings) : Artifact :=
  let values :=
    [d.freshId] ++ recordParameters.map (":" ++ ·)
      ++ [d.now, d.currentUser.sent, d.transactionId.sent, ":CHANGELOG_ID"]
  procedure appendName
    (("IN CHANGELOG_ID " ++ idType)
      :: recordParameters.map fun name => "IN " ++ name ++ " " ++ textType)
    ("INSERT INTO " ++ d.tableName settings.changesTable ++ " ("
      ++ columnList d changeColumns ++ ")\n    VALUES (" ++ ", ".intercalate values ++ ");")

/-- The artifacts that all triggers share. -/
def support (d : Dialect) (settings : Settings) : List Artifact :=
  [openProcedure d settings, appendProcedure d settings]

end ChangeTracking.Script.Hana
