import ChangeTracking.Plan.Expr

/-!
# Guards

The conditions under which a trigger records a change.
-/

namespace ChangeTracking.Plan

/-- A condition over value expressions. -/
inductive Guard
  | notNull (value : Expr)
  /-- The values differ, where nothing equals nothing and differs from everything else. -/
  | changed (old new : Expr)
  | any (guards : List Guard)
  | all (guards : List Guard)
  | negate (inner : Guard)
  /-- The session holds the text `true` under this name. -/
  | flag (name : String)
  deriving Repr

namespace Guard

/-- A disjunction; one guard alone stands for itself. -/
def anyOf : List Guard → Guard
  | [guard] => guard
  | guards => any guards

/-- A conjunction; one guard alone stands for itself. -/
def allOf : List Guard → Guard
  | [guard] => guard
  | guards => all guards

mutual

/-- Replace the row to be bound by `row`. -/
def bind (row : RowRole) : Guard → Guard
  | .notNull value => .notNull (value.bind row)
  | .changed old new => .changed (old.bind row) (new.bind row)
  | .any guards => .any (bindAll row guards)
  | .all guards => .all (bindAll row guards)
  | .negate inner => .negate (bind row inner)
  | .flag name => .flag name

/-- Bind every guard of a list. -/
def bindAll (row : RowRole) : List Guard → List Guard
  | [] => []
  | guard :: guards => bind row guard :: bindAll row guards

end

theorem bindAll_eq_map (row : RowRole) (guards : List Guard) :
    bindAll row guards = guards.map (bind row) := by
  induction guards with
  | nil => simp [bindAll]
  | cons guard guards ih => simp [bindAll, ih]

mutual

def hasLookup : Guard → Bool
  | .notNull value => value.hasLookup
  | .changed old new => old.hasLookup || new.hasLookup
  | .any guards => anyLookup guards
  | .all guards => anyLookup guards
  | .negate inner => hasLookup inner
  | .flag _ => false

/-- One of the guards reads another record. -/
def anyLookup : List Guard → Bool
  | [] => false
  | guard :: guards => hasLookup guard || anyLookup guards

end

/-- The value is there, tested on the columns alone where they decide. -/
def present (value : Expr) : Guard :=
  match value.nullColumns with
  | some columns => allOf (columns.map fun c => notNull (.column c.1 c.2))
  | none => notNull value

end Guard

end ChangeTracking.Plan
