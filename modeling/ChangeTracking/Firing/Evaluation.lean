import ChangeTracking.Plan.Encoding
import ChangeTracking.Skip.Session

/-!
# Evaluation

The value of an expression and the truth of a guard for the rows, the store and the skip
scopes that a trigger sees.  Every database must agree with it.
-/

namespace ChangeTracking.Firing

open Plan (Expr Guard RowRole)

/-! ## Rows and stores

A row holds texts by column; a column that it lacks is missing.  A store holds the rows of
all tables in the order in which they were written. -/

/-- A row of a table. -/
structure Row where
  cells : List (String × String) := []
  deriving DecidableEq, Repr

def Row.get? (row : Row) (column : String) : Option String := row.cells.lookup column

/-- The row has all of the given values. -/
def Row.has (row : Row) (values : List (String × String)) : Bool :=
  values.all fun v => row.get? v.1 == some v.2

/-- The tables that a trigger may read, and the locale of the session. -/
structure Store where
  rows : List (String × Row) := []
  locale : Option String := none
  deriving DecidableEq, Repr

namespace Store

/-- Write one more row of an entity. -/
def insert (s : Store) (entity : String) (row : Row) : Store :=
  { s with rows := s.rows ++ [(entity, row)] }

/-- The rows of an entity in the order in which they were written. -/
def rowsOf (s : Store) (entity : String) : List Row :=
  (s.rows.filter (·.1 == entity)).map (·.2)

/-- The first row of an entity that has the given values. -/
def find? (s : Store) (entity : String) (values : List (String × String)) : Option Row :=
  (s.rowsOf entity).find? (·.has values)

end Store

/-! ## Scenes -/

/-- What a trigger sees. -/
structure Scene where
  old : Option Row
  new : Option Row
  /-- The row that the operation is about. -/
  subject : Option Row
  store : Store
  skips : Skip.Session

namespace Scene

def row (s : Scene) : RowRole → Option Row
  | .old => s.old
  | .new => s.new
  | .record => s.subject
  | .subject => s.subject

mutual

def value (s : Scene) : Expr → Option String
  | .null => none
  | .text value => some value
  | .column role name => (s.row role).bind fun row => row.get? name
  | .variable _ => none
  | .locale => s.store.locale
  | .lookup entity name filters =>
      (filterValues s filters).bind fun values =>
        (s.store.find? entity values).bind fun row => row.get? name
  | .keyJoin parts => Plan.joinKey (values s parts)
  | .listJoin parts => Plan.joinNonEmpty (values s parts)
  | .firstOf parts => firstValue s parts
  | .encoded rule inner => (value s inner).map rule.apply

def values (s : Scene) : List Expr → List (Option String)
  | [] => []
  | e :: es => value s e :: values s es

/-- The first value that is there. -/
def firstValue (s : Scene) : List Expr → Option String
  | [] => none
  | e :: es => (value s e).or (firstValue s es)

/-- The values of filters, when all are there. -/
def filterValues (s : Scene) : List (String × Expr) → Option (List (String × String))
  | [] => some []
  | (column, e) :: filters =>
      (value s e).bind fun v => (filterValues s filters).map fun rest => (column, v) :: rest

end

theorem values_eq_map (s : Scene) (es : List Expr) : s.values es = es.map s.value := by
  induction es with
  | nil => simp [values]
  | cons e es ih => simp [values, ih]

theorem firstValue_eq_findSome? (s : Scene) (es : List Expr) :
    s.firstValue es = es.findSome? s.value := by
  induction es with
  | nil => simp [firstValue]
  | cons e es ih =>
      cases h : s.value e <;> simp [firstValue, ih, h]

section Congruence

variable {α : Type} {s t : Scene} {f g : α → Expr} {xs : List α}

theorem values_congr (h : ∀ x ∈ xs, s.value (f x) = t.value (g x)) :
    s.values (xs.map f) = t.values (xs.map g) := by
  rw [values_eq_map, values_eq_map, List.map_map, List.map_map]
  exact List.map_congr_left h

theorem firstValue_congr (h : ∀ x ∈ xs, s.value (f x) = t.value (g x)) :
    s.firstValue (xs.map f) = t.firstValue (xs.map g) := by
  induction xs with
  | nil => rfl
  | cons x xs ih =>
      obtain ⟨hx, hxs⟩ := List.forall_mem_cons.mp h
      simp only [List.map_cons, firstValue, hx, ih hxs]

theorem filterValues_congr {name : α → String} (h : ∀ x ∈ xs, s.value (f x) = t.value (g x)) :
    s.filterValues (xs.map fun x => (name x, f x)) =
      t.filterValues (xs.map fun x => (name x, g x)) := by
  induction xs with
  | nil => rfl
  | cons x xs ih =>
      obtain ⟨hx, hxs⟩ := List.forall_mem_cons.mp h
      simp only [List.map_cons, filterValues, hx, ih hxs]

end Congruence

/-- A raw text stands for itself. -/
theorem value_rawText (s : Scene) (e : Expr) : s.value (Plan.rawText e) = s.value e := by
  rw [Plan.rawText, value]
  exact congrFun Option.map_id_fun' _

theorem value_keyOfTexts (s : Scene) (columns : List String) (read : String → Expr) :
    s.value (.keyJoin (columns.map fun column => Plan.rawText (read column))) =
      Plan.joinKey (columns.map fun column => s.value (read column)) := by
  rw [value, values_eq_map, List.map_map]
  exact congrArg Plan.joinKey (List.map_congr_left fun column _ => s.value_rawText (read column))

mutual

def holds (s : Scene) : Guard → Bool
  | .notNull value => (s.value value).isSome
  | .changed old new => Plan.differs (s.value old) (s.value new)
  | .any guards => anyHolds s guards
  | .all guards => allHold s guards
  | .negate inner => !holds s inner
  | .flag name => s.skips.isFlagSet name

def anyHolds (s : Scene) : List Guard → Bool
  | [] => false
  | guard :: guards => holds s guard || anyHolds s guards

def allHold (s : Scene) : List Guard → Bool
  | [] => true
  | guard :: guards => holds s guard && allHold s guards

end

theorem anyHolds_eq_any (s : Scene) (guards : List Guard) :
    s.anyHolds guards = guards.any s.holds := by
  induction guards with
  | nil => simp [anyHolds]
  | cons guard guards ih => simp [anyHolds, ih]

theorem allHold_eq_all (s : Scene) (guards : List Guard) :
    s.allHold guards = guards.all s.holds := by
  induction guards with
  | nil => simp [allHold]
  | cons guard guards ih => simp [allHold, ih]

end Scene

end ChangeTracking.Firing
