import ChangeTracking.Script.Artifact

/-!
# Catalog

What is installed is found again by name alone: the name of every generated trigger has
a mark in it.  Found triggers are dropped and created anew, never altered.
-/

namespace ChangeTracking.Deploy

open Script (Generator)

/-- The mark in the names of generated triggers. -/
def nameMark : String := "_CT_"

/-- The name has the mark of a generated trigger, in any ASCII letter case. -/
def isGenerated (name : String) : Bool := Text.contains nameMark name.toUpper

/-- The condition that a catalog column holds the name of a generated trigger. -/
def markCondition (column : String) : String :=
  column ++ " LIKE '%\\_CT\\_%' ESCAPE '\\'"

/-- The query for the generated triggers on the table of an entity. -/
def catalogQuery (g : Generator) (entity : String) : String :=
  let table := Text.sqlLiteral (g.dialect.catalogTable entity)
  match g.backend with
  | .sqlite =>
      "SELECT name FROM sqlite_master WHERE type = 'trigger' AND tbl_name = " ++ table
        ++ " AND " ++ markCondition "name"
  | .hana =>
      "SELECT TRIGGER_NAME FROM SYS.TRIGGERS WHERE SUBJECT_TABLE_NAME = " ++ table ++ " AND "
        ++ markCondition "TRIGGER_NAME"
  | .h2 =>
      "SELECT TRIGGER_NAME FROM INFORMATION_SCHEMA.TRIGGERS WHERE EVENT_OBJECT_TABLE = "
        ++ table ++ " AND " ++ markCondition "TRIGGER_NAME"
  | .postgres =>
      "SELECT tgname FROM pg_trigger WHERE tgrelid = "
        ++ Text.sqlLiteral (g.dialect.tableName entity)
        ++ "::regclass AND NOT tgisinternal AND tgname ILIKE '%\\_ct\\_%'"

/-- The ending of the name of a trigger that has a function of its own. -/
def triggerEnding : String := "_trigger"

/-- The function that a trigger calls, told from their names. -/
def functionOf? (trigger : String) : Option String :=
  (Text.before? triggerEnding trigger).map (· ++ "_func")

/-- The statements that drop one trigger on the table of an entity. -/
def dropTrigger (g : Generator) (entity name : String) : List String :=
  match g.backend with
  | .postgres =>
      ("DROP TRIGGER IF EXISTS " ++ Text.sqlIdentifier name ++ " ON "
          ++ g.dialect.tableName entity)
        :: (functionOf? name).toList.map fun function =>
          "DROP FUNCTION IF EXISTS " ++ Text.sqlIdentifier function ++ "()"
  | .hana => ["DROP TRIGGER " ++ Text.sqlIdentifier name]
  | .sqlite => ["DROP TRIGGER IF EXISTS " ++ Text.sqlIdentifier name]
  | .h2 => ["DROP TRIGGER IF EXISTS " ++ Text.sqlIdentifier name]

/-- The statements that drop the generated ones among the existing triggers; other
triggers are left alone. -/
def dropStatements (g : Generator) (entity : String) (existing : List String) : List String :=
  (existing.filter isGenerated).flatMap (dropTrigger g entity)

end ChangeTracking.Deploy
