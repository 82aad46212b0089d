import ChangeTracking.Plan.Guard

/-!
# Encoding rules

Every value is recorded as text: booleans by name, text cut to the length that a change
record holds, keys joined by a separator, all else as the database casts it.  The rules
are given twice, on expressions and on values.
-/

namespace ChangeTracking.Plan

open Tracking (ValueClass)

/-- Longest recorded text, in characters. -/
def maxValueLength : Nat := 5000

/-- Characters kept of a longer text. -/
def truncatedLength : Nat := 4997

/-- Marks a text that was cut. -/
def ellipsis : String := "..."

/-- Stands between the parts of a composite key. -/
def keySeparator : String := "||"

/-- Stands between the parts of an object identifier or label. -/
def listSeparator : String := ", "

/-! ## On expressions -/

/-- The rule for values of a class. -/
def TextRule.of (valueClass : ValueClass) : TextRule :=
  if valueClass = .boolean then .booleanText
  else if valueClass.isText then .truncated
  else .cast valueClass

/-- The recorded form of a value of a class. -/
def encode (valueClass : ValueClass) (value : Expr) : Expr :=
  .encoded (.of valueClass) value

/-- The text of a raw key column. -/
def rawText (value : Expr) : Expr := .encoded (.cast .other) value

/-- The parts as one key; a single part stands for itself. -/
def joinedKey : List Expr → Expr
  | [part] => part
  | parts => .keyJoin parts

/-- The raw key that the columns of a row hold. -/
def encodeKey (columns : List String) (row : RowRole) : Expr :=
  joinedKey (columns.map fun column => rawText (.column row column))

/-- The column differs between the two rows of an update. -/
def columnChanged (column : String) : Guard :=
  .changed (.column .old column) (.column .new column)

/-! ## On values -/

/-- The text cut to the length that a change record holds. -/
def truncate (value : String) : String :=
  if value.length ≤ maxValueLength then value
  else String.ofList (value.toList.take truncatedLength) ++ ellipsis

theorem length_truncate_le (value : String) : (truncate value).length ≤ maxValueLength := by
  unfold truncate
  split
  · assumption
  · have hellipsis : ellipsis.length = 3 := by decide
    rw [String.length_append, String.length_ofList, List.length_take, hellipsis, maxValueLength,
      truncatedLength]
    omega

theorem truncate_ne_empty {value : String} (h : value ≠ "") : truncate value ≠ "" := by
  unfold truncate
  split
  · exact h
  · intro hempty
    have hellipsis : ellipsis ≠ "" := by decide
    exact hellipsis (String.append_eq_empty_iff.mp hempty).2

/-- The spellings of true that databases use. -/
def isTrueText (value : String) : Bool :=
  value == "1" || value == "true" || value == "TRUE" || value == "True"

def booleanName (value : String) : String :=
  if isTrueText value then "true" else "false"

/-- The values differ, where nothing equals nothing and differs from everything else. -/
def differs (old new : Option String) : Bool := old != new

/-- The parts as one key; missing when one of them is. -/
def joinKey (parts : List (Option String)) : Option String :=
  (parts.mapM id).map keySeparator.intercalate

/-- The parts that are there and not empty. -/
def phraseParts (parts : List (Option String)) : List String :=
  parts.filterMap fun part => part.filter fun value => !value.isEmpty

theorem ne_empty_of_mem_phraseParts {parts : List (Option String)} {value : String}
    (h : value ∈ phraseParts parts) : value ≠ "" := by
  obtain ⟨part, -, hpart⟩ := List.mem_filterMap.mp h
  simpa using (Option.filter_eq_some_iff.mp hpart).2

/-- The parts that are not empty, as one phrase; missing when there are none. -/
def joinNonEmpty (parts : List (Option String)) : Option String :=
  match phraseParts parts with
  | [] => none
  | values => some (listSeparator.intercalate values)

/-- A phrase begins with its first part, which is not empty. -/
theorem joinNonEmpty_ne_empty {parts : List (Option String)} {value : String}
    (h : joinNonEmpty parts = some value) : value ≠ "" := by
  unfold joinNonEmpty at h
  split at h
  · cases h
  · rename_i values hne
    cases h
    cases hvalues : phraseParts parts with
    | nil => exact absurd hvalues hne
    | cons first rest =>
        have hfirst : first ≠ "" := ne_empty_of_mem_phraseParts (hvalues ▸ List.mem_cons_self)
        cases rest with
        | nil => simpa using hfirst
        | cons second rest =>
            rw [String.intercalate_cons_cons]
            simp [hfirst]

/-- Apply a rule to a value that is there. -/
def TextRule.apply : TextRule → String → String
  | .booleanText, value => booleanName value
  | .truncated, value => truncate value
  | .cast _, value => value

end ChangeTracking.Plan
