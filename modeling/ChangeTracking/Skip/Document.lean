import ChangeTracking.Json.Value
import ChangeTracking.Skip.Scope
import ChangeTracking.Sql.Dialect

/-!
# Session updates

Setting or clearing a flag changes the state of a database session.  Where the database
has no such state the host keeps the value and hands it to the triggers.  The host learns
in JSON form what it has to change, and which scopes are skipped.
-/

namespace ChangeTracking.Skip

/-- A change of session state for the caller to carry out. -/
inductive SessionUpdate
  /-- A statement to execute. -/
  | sql (statement : String)
  /-- A value for the host to keep, or to forget. -/
  | host (key : String) (value : Option String)
  deriving DecidableEq, Repr

def setFlag (backend : Backend) (flag : String) : SessionUpdate :=
  match backend with
  | .sqlite => .host flag (some "true")
  | .hana => .sql ("SET '" ++ flag ++ "' = 'true'")
  | .h2 => .sql ("SET " ++ Sql.userVariable flag ++ " = 'true'")
  | .postgres => .sql ("SELECT set_config('" ++ flag ++ "', 'true', true)")

def resetFlag (backend : Backend) (flag : String) : SessionUpdate :=
  match backend with
  | .sqlite => .host flag none
  | .hana => .sql ("UNSET '" ++ flag ++ "'")
  | .h2 => .sql ("SET " ++ Sql.userVariable flag ++ " = NULL")
  | .postgres => .sql ("SELECT set_config('" ++ flag ++ "', '', true)")

/-! ## Documents -/

/-- The JSON form of a scope: its width, then its names. -/
def Scope.toJson : Scope → Json
  | everything => .texts ["all"]
  | entity name => .texts ["entity", name]
  | element owner name => .texts ["attribute", owner, name]

def SessionUpdate.toJson : SessionUpdate → Json
  | sql statement => .record [("sql", .text statement)]
  | host key value => .record [("key", .text key), ("value", .ofOption .text value)]

end ChangeTracking.Skip
