import ChangeTracking.NameMap
import ChangeTracking.Skip.Document
import ChangeTracking.Skip.Scope

/-!
# Skip sessions

The skip scopes of one transaction, and the flags that it has set in the database
session.  Session state outlives the transaction, so every flag that was set has to be
cleared again.
-/

namespace ChangeTracking.Skip

/-- The skip scopes of one transaction. -/
structure Session where
  /-- The scopes to skip, in order. -/
  scopes : List Scope := []
  /-- The names of the flags set in the database session. -/
  applied : NameMap Unit := NameMap.empty
  deriving DecidableEq, Repr

namespace Session

def skip (s : Session) (scope : Scope) : Session :=
  { s with scopes := insertScope scope s.scopes }

/-- A change of the entity, or of one of its attributes, is suppressed. -/
def isSkipped (s : Session) (entity : String) (attribute? : Option String) : Bool :=
  s.scopes.contains .everything || s.scopes.contains (.entity entity)
    || attribute?.any fun name => s.scopes.contains (.element entity name)

/-- A scope with this flag name is skipped. -/
def isFlagSet (s : Session) (name : String) : Bool :=
  s.scopes.any fun scope => scope.flagName == name

/-- Set the flags of the scopes that are not set yet, in order; the names set by now come
first. -/
def applyScopes (backend : Backend) (applied : NameMap Unit) :
    List Scope → NameMap Unit × List SessionUpdate
  | [] => (applied, [])
  | scope :: scopes =>
      if applied.contains scope.flagName then applyScopes backend applied scopes
      else
        let rest := applyScopes backend (applied.insert scope.flagName ()) scopes
        (rest.1, setFlag backend scope.flagName :: rest.2)

/-- Publish the scopes to the database session. -/
def apply (s : Session) (backend : Backend) : Session × List SessionUpdate :=
  let result := applyScopes backend s.applied s.scopes
  ({ s with applied := result.1 }, result.2)

/-- Clear every flag that was set; nothing is skipped afterwards. -/
def reset (s : Session) (backend : Backend) : Session × List SessionUpdate :=
  ({}, s.applied.names.map (resetFlag backend))

/-- The updates that end the transaction. -/
def finish (s : Session) (backend : Backend) : List SessionUpdate :=
  (s.reset backend).2

end Session

end ChangeTracking.Skip
