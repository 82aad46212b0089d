import ChangeTracking.Tracking.ValueClass

/-!
# Value expressions

The values that a trigger computes, independent of any database: columns of the rows
at hand, values read from other records, and the ways of joining and writing them.
Plans are written over the `subject` row, which is bound to a concrete row for each
operation.
-/

namespace ChangeTracking.Plan

open Tracking (ValueClass)

/-- The rows that an expression may read. -/
inductive RowRole
  | old
  | new
  /-- The row that the operation is about: the new one, or the old one of a delete. -/
  | record
  /-- Stands for the row to be bound. -/
  | subject
  deriving DecidableEq, Repr

/-- How a value is written as text. -/
inductive TextRule
  /-- As `true` or `false`. -/
  | booleanText
  /-- Cut to the longest text that a change record holds. -/
  | truncated
  /-- As the database writes values of the class. -/
  | cast (valueClass : ValueClass)
  deriving DecidableEq, Repr

/-- A value expression. -/
inductive Expr
  | null
  | text (value : String)
  | column (row : RowRole) (name : String)
  /-- A value computed beforehand, once for each invocation. -/
  | variable (name : String)
  /-- The locale of the session. -/
  | locale
  /-- A column of the record of `entity` whose columns have the given values. -/
  | lookup (entity column : String) (filters : List (String × Expr))
  /-- The parts as one key; missing when one of them is. -/
  | keyJoin (parts : List Expr)
  /-- The parts that are not empty, as one phrase; missing when there are none. -/
  | listJoin (parts : List Expr)
  /-- The first part that is there. -/
  | firstOf (parts : List Expr)
  | encoded (rule : TextRule) (inner : Expr)
  deriving Repr

namespace Expr

/-- The expression is the literal `null`. -/
def isNull : Expr → Bool
  | null => true
  | _ => false

mutual

/-- Replace the row to be bound by `row`. -/
def bind (row : RowRole) : Expr → Expr
  | .null => .null
  | .text value => .text value
  | .column .subject name => .column row name
  | .column other name => .column other name
  | .variable name => .variable name
  | .locale => .locale
  | .lookup entity name filters => .lookup entity name (bindFilters row filters)
  | .keyJoin parts => .keyJoin (bindAll row parts)
  | .listJoin parts => .listJoin (bindAll row parts)
  | .firstOf parts => .firstOf (bindAll row parts)
  | .encoded rule inner => .encoded rule (bind row inner)

/-- Bind every expression of a list. -/
def bindAll (row : RowRole) : List Expr → List Expr
  | [] => []
  | e :: es => bind row e :: bindAll row es

def bindFilters (row : RowRole) : List (String × Expr) → List (String × Expr)
  | [] => []
  | (name, e) :: filters => (name, bind row e) :: bindFilters row filters

end

theorem bindAll_eq_map (row : RowRole) (es : List Expr) : bindAll row es = es.map (bind row) := by
  induction es with
  | nil => simp [bindAll]
  | cons e es ih => simp [bindAll, ih]

theorem bindFilters_eq_map (row : RowRole) (filters : List (String × Expr)) :
    bindFilters row filters = filters.map fun f => (f.1, bind row f.2) := by
  induction filters with
  | nil => simp [bindFilters]
  | cons f filters ih => simp [bindFilters, ih]

mutual

def hasLookup : Expr → Bool
  | .lookup .. => true
  | .keyJoin parts => anyLookup parts
  | .listJoin parts => anyLookup parts
  | .firstOf parts => anyLookup parts
  | .encoded _ inner => hasLookup inner
  | _ => false

/-- One of the expressions reads another record. -/
def anyLookup : List Expr → Bool
  | [] => false
  | e :: es => hasLookup e || anyLookup es

end

mutual

/-- The columns of which one is missing exactly when the value is; nothing when that
depends on more than columns. -/
def nullColumns : Expr → Option (List (RowRole × String))
  | .column row name => some [(row, name)]
  | .encoded _ inner => nullColumns inner
  | .keyJoin parts => allNullColumns parts
  | _ => none

/-- The columns of all expressions, when each has some. -/
def allNullColumns : List Expr → Option (List (RowRole × String))
  | [] => some []
  | e :: es =>
      (nullColumns e).bind fun columns => (allNullColumns es).map fun rest => columns ++ rest

end

end Expr

end ChangeTracking.Plan
