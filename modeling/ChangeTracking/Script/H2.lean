import ChangeTracking.Script.Artifact
import ChangeTracking.Script.Statement
import ChangeTracking.Text.Chars

/-!
# H2 triggers

One trigger for each operation, given as Java source that the database compiles.  The
class finds row values by column name, and every statement it issues binds row values
and locals as parameters.
-/

namespace ChangeTracking.Script.H2

open Plan (Expr Guard Identity Operation TrackedColumn TriggerSet)
open Sql (Dialect Fragment)

/-! ## Members of every class -/

def columnIndex : List String :=
  ["private final java.util.Map<String, Integer> columns = new java.util.HashMap<>();"]

/-- Build the index from the catalog. -/
def initMethod : List String :=
  ["@Override",
    "public void init(java.sql.Connection conn, String schemaName, String triggerName, String tableName,",
    "        boolean before, int type) throws java.sql.SQLException \x7b",
    "    try (java.sql.PreparedStatement ps = conn.prepareStatement(",
    "            \"SELECT COLUMN_NAME, ORDINAL_POSITION FROM INFORMATION_SCHEMA.COLUMNS WHERE TABLE_SCHEMA = ? AND TABLE_NAME = ?\")) \x7b",
    "        ps.setString(1, schemaName);",
    "        ps.setString(2, tableName);",
    "        try (java.sql.ResultSet rs = ps.executeQuery()) \x7b",
    "            while (rs.next()) \x7b",
    "                columns.put(rs.getString(1), rs.getInt(2) - 1);",
    "            \x7d",
    "        \x7d",
    "    \x7d",
    "\x7d"]

def valueMethod : List String :=
  ["private Object value(Object[] row, String column) \x7b",
    "    Integer index = columns.get(column);",
    "    return row == null || index == null ? null : row[index];",
    "\x7d"]

/-- Prepare a statement with its parameters. -/
def prepareMethod : List String :=
  ["private java.sql.PreparedStatement prepare(java.sql.Connection conn, String sql, Object... params)",
    "        throws java.sql.SQLException \x7b",
    "    java.sql.PreparedStatement ps = conn.prepareStatement(sql);",
    "    for (int i = 0; i < params.length; i++) \x7b",
    "        ps.setObject(i + 1, params[i]);",
    "    \x7d",
    "    return ps;",
    "\x7d"]

/-- The first value that a query finds. -/
def scalarMethod : List String :=
  ["private String scalar(java.sql.Connection conn, String sql, Object... params) throws java.sql.SQLException \x7b",
    "    try (java.sql.PreparedStatement ps = prepare(conn, sql, params);",
    "            java.sql.ResultSet rs = ps.executeQuery()) \x7b",
    "        return rs.next() ? rs.getString(1) : null;",
    "    \x7d",
    "\x7d"]

def executeMethod : List String :=
  ["private void execute(java.sql.Connection conn, String sql, Object... params) throws java.sql.SQLException \x7b",
    "    try (java.sql.PreparedStatement ps = prepare(conn, sql, params)) \x7b",
    "        ps.executeUpdate();",
    "    \x7d",
    "\x7d"]

/-- Nothing to close. -/
def closeMethod : List String :=
  ["@Override",
    "public void close() \x7b",
    "\x7d"]

/-- Nothing to remove. -/
def removeMethod : List String :=
  ["@Override",
    "public void remove() \x7b",
    "\x7d"]

/-- The members that do not depend on the trigger. -/
def members : String :=
  "\n\n".intercalate
    ([columnIndex, initMethod, valueMethod, prepareMethod, scalarMethod, executeMethod,
      closeMethod, removeMethod].map fun lines => "\n".intercalate lines)

/-! ## Calls -/

/-- The local that holds the identifier of the header. -/
def headerLocal : String := "changeLogId"

/-- A call of a member with a statement and its parameters. -/
def call (method : String) (statement : Fragment) : String :=
  method ++ "(conn, " ++ Text.javaLiteral statement.sent
    ++ String.join (statement.parameters.map (", " ++ ·)) ++ ")"

/-- A Java condition that has the database test a guard. -/
def test (d : Dialect) (guard : Guard) : String :=
  call "scalar"
      (.ofText "SELECT CASE WHEN " ++ d.renderGuard guard ++ .ofText " THEN 'true' END")
    ++ " != null"

/-- The query for the identifier of the header. -/
def selectHeader (d : Dialect) (set : TriggerSet) (key : Expr) : Fragment :=
  .ofText ("SELECT " ++ d.columnName "ID" ++ " FROM " ++ d.tableName set.headerTable
      ++ " WHERE ")
    ++ whereClause d (historyFilters set key)

/-- Find or create the header, once for each invocation. -/
def openHeader (d : Dialect) (set : TriggerSet) : String :=
  let key := Expr.variable Identity.entityKeyName
  "if (" ++ headerLocal ++ " == null) \x7b\n    " ++ headerLocal ++ " = "
    ++ call "scalar" (selectHeader d set key)
    ++ ";\n    if (" ++ headerLocal ++ " == null) \x7b\n        " ++ headerLocal
    ++ " = java.util.UUID.randomUUID().toString();\n        "
    ++ call "execute" (insertHeader d set (d.localValue headerLocal) key)
    ++ ";\n    \x7d\n\x7d"

/-- Record one column under its guard. -/
def recordColumn (d : Dialect) (set : TriggerSet) (op : Operation) (column : TrackedColumn) :
    String :=
  let identity := (set.identity op.subject).fromLocals
  "if (" ++ test d (column.guarded op) ++ ") \x7b\n" ++ Text.indent 1 (openHeader d set)
    ++ "\n    "
    ++ call "execute" (insertChange d set column op identity (.variable headerLocal))
    ++ ";\n\x7d"

/-- The locals of the computed values that are there. -/
def declarations (d : Dialect) (set : TriggerSet) (op : Operation) : List String :=
  ((set.identity op.subject).values.filter fun v => !v.2.isNull).map fun v =>
    "String " ++ v.1 ++ " = " ++ call "scalar" (.ofText "SELECT " ++ d.render v.2) ++ ";"

/-- The statements of the method that fires. -/
def statements (d : Dialect) (set : TriggerSet) (op : Operation) : List String :=
  if set.purges op then
    (purgeStatements d set (set.identity op.subject).fromLocals.entityKey).map fun statement =>
      call "execute" statement ++ ";"
  else
    ("String " ++ headerLocal ++ " = null;") :: set.columns.map (recordColumn d set op)

/-- The body of the method that fires. -/
def fireBody (d : Dialect) (set : TriggerSet) (op : Operation) : String :=
  "\n".intercalate
    (("if (" ++ test d set.skipGuard ++ ") \x7b\n    return;\n\x7d")
      :: (declarations d set op ++ statements d set op))

def fireMethod (d : Dialect) (set : TriggerSet) (op : Operation) : String :=
  "@Override\npublic void fire(java.sql.Connection conn, Object[] oldRow, Object[] newRow)\n"
    ++ "        throws java.sql.SQLException \x7b\n" ++ Text.indent 1 (fireBody d set op)
    ++ "\n\x7d"

def trigger (d : Dialect) (set : TriggerSet) (op : Operation) : Artifact :=
  let name := operationName d set op
  { name := name
    entity := some set.entity
    source :=
      "CREATE TRIGGER " ++ Text.sqlIdentifier name ++ " AFTER " ++ op.event ++ " ON "
        ++ d.tableName set.entity
        ++ " FOR EACH ROW AS $$\norg.h2.api.Trigger create() \x7b\n"
        ++ "    return new org.h2.api.Trigger() \x7b\n"
        ++ Text.indent 2 (members ++ "\n\n" ++ fireMethod d set op)
        ++ "\n    \x7d;\n\x7d\n$$;"
    kind := .javaTrigger }

end ChangeTracking.Script.H2
