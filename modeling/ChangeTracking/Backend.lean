import ChangeTracking.Fault

/-!
# Backends

The four databases that triggers are written for, and the names they answer to.
-/

namespace ChangeTracking

/-- A database that triggers are written for. -/
inductive Backend
  | sqlite
  | hana
  | h2
  | postgres
  deriving DecidableEq, Repr

namespace Backend

def all : List Backend := [sqlite, hana, h2, postgres]

def name : Backend → String
  | sqlite => "sqlite"
  | hana => "hana"
  | h2 => "h2"
  | postgres => "postgres"

/-- The position of a backend in declared order. -/
def index : Backend → Nat
  | sqlite => 0
  | hana => 1
  | h2 => 2
  | postgres => 3

/-- Every name that a backend answers to, in lower case. -/
def aliases : List (String × Backend) :=
  [("sqlite", sqlite), ("hana", hana), ("h2", h2), ("postgres", postgres),
    ("postgresql", postgres), ("pg", postgres)]

/-- The backend of this name, in any ASCII letter case. -/
def ofName? (name : String) : Option Backend := aliases.lookup name.toLower

/-- The backend of this name, which is expected to exist. -/
def parse (name : String) : Except Fault Backend :=
  match ofName? name with
  | some backend => .ok backend
  | none => .error (.unsupportedBackend name (", ".intercalate (all.map Backend.name)))

end Backend

end ChangeTracking
