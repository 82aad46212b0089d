import ChangeTracking.NameMap
import ChangeTracking.Script.Artifact
import ChangeTracking.Settings

/-!
# Generators by name

Generators are registered under names in any ASCII letter case; a name that a backend
answers to finds what is registered under the backend's own name.
-/

namespace ChangeTracking.Script

/-- Generators by name. -/
structure Registry where
  generators : NameMap Generator := NameMap.empty
  deriving DecidableEq, Repr

namespace Registry

/-- Register a generator, replacing the one of the same name. -/
def register (r : Registry) (name : String) (g : Generator) : Registry :=
  ⟨r.generators.insert name.toLower g⟩

/-- The generators of all backends under their own names. -/
def builtin (settings : Settings) : Registry :=
  Backend.all.foldl
    (fun r backend => r.register backend.name ⟨backend, settings.quotedIdentifiers⟩) {}

/-- The name under which a name is looked up. -/
def lookupName (name : String) : String :=
  match Backend.ofName? name with
  | some backend => backend.name
  | none => name.toLower

/-- The generator that a name finds. -/
def get? (r : Registry) (name : String) : Option Generator :=
  r.generators.get? (lookupName name)

/-- All registered names, ascending. -/
def names (r : Registry) : List String := r.generators.names

def isEmpty (r : Registry) : Bool := r.generators.entries.isEmpty

/-- The generator of this name, which is expected to be registered. -/
def require (r : Registry) (name : String) : Except Fault Generator :=
  match r.get? name with
  | some g => .ok g
  | none => .error (.unsupportedBackend name (", ".intercalate r.names))

end Registry

end ChangeTracking.Script
