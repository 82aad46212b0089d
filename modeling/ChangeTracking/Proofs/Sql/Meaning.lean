import ChangeTracking.Proofs.Sql.Syntax

/-!
# Meaning of SQL values and conditions

The standard meaning: a missing value makes every operator that does not ask for it give
a missing value or an unknown truth, and unknown truths combine by the three-valued
tables.  Names match in any ASCII letter case.
-/

namespace ChangeTracking.Sql.Engine

/-- A value that is there. -/
inductive Scalar
  | number (value : Nat)
  | text (value : String)
  deriving DecidableEq, Repr

namespace Scalar

def spelling : Scalar → String
  | number value => toString value
  | text value => value

/-- Numbers come before texts. -/
def lt : Scalar → Scalar → Bool
  | number a, number b => a < b
  | number _, text _ => true
  | text _, number _ => false
  | text a, text b => a < b

end Scalar

/-! ## Names, rows and databases -/

/-- A name as names are compared. -/
def foldName (name : String) : List Char := name.toList.map Char.toUpper

def sameName (a b : String) : Bool := foldName a == foldName b

/-- The named cells of a row. -/
abbrev Cells := List (String × Option Scalar)

def Cells.get (cells : Cells) (name : String) : Option Scalar :=
  (cells.find? fun cell => sameName cell.1 name).bind (·.2)

/-- What the database holds apart from the rows of a trigger. -/
structure Database where
  /-- The rows of a table. -/
  tables : String → List Cells
  /-- The values of the session. -/
  session : String → Option String

/-- What a value or a condition is about. -/
structure Environment where
  database : Database
  old : Option Cells
  new : Option Cells
  /-- The rows of the queries around, innermost first, with the names of their tables. -/
  rows : List (Option String × Cells) := []

namespace Environment

/-- Look at a row of a query. -/
def enter (env : Environment) (table : Option String) (cells : Cells) : Environment :=
  { env with rows := (table, cells) :: env.rows }

/-- A column of the innermost row. -/
def column (env : Environment) (name : String) : Option Scalar :=
  env.rows.head?.bind fun row => row.2.get name

/-- The row with a name: that of a query around, or else a row of the trigger. -/
def row (env : Environment) (name : String) : Option Cells :=
  -- A table of a query hides a row of the trigger with the same name.
  match env.rows.find? fun row => row.1.any (sameName name) with
  | some row => some row.2
  | none =>
      if sameName name "OLD" then env.old
      else if sameName name "NEW" then env.new
      else none

end Environment

/-! ## Truth -/

def both : Option Bool → Option Bool → Option Bool
  | some false, _ => some false
  | _, some false => some false
  | some true, some true => some true
  | _, _ => none

/-- One of the two is true. -/
def either : Option Bool → Option Bool → Option Bool
  | some true, _ => some true
  | _, some true => some true
  | some false, some false => some false
  | _, _ => none

def every (truths : List (Option Bool)) : Option Bool := truths.foldr both (some true)

def some? (truths : List (Option Bool)) : Option Bool := truths.foldr either (some false)

/-- The comparison of two values that are there. -/
def Comparison.holds : Comparison → Scalar → Scalar → Bool
  | equal, a, b => a == b
  | unequal, a, b => a != b
  | greater, a, b => b.lt a

/-- The comparison of two values; unknown when one is missing. -/
def Comparison.truth (comparison : Comparison) (left right : Option Scalar) : Option Bool :=
  left.bind fun a => right.map fun b => comparison.holds a b

theorem every_cons (truth : Option Bool) (truths : List (Option Bool)) :
    every (truth :: truths) = both truth (every truths) := rfl

theorem both_beq_some_true (a b : Option Bool) :
    (both a b == some true) = ((a == some true) && (b == some true)) := by
  cases a with
  | none =>
      cases b with
      | none => rfl
      | some b => cases b <;> rfl
  | some a =>
      cases b with
      | none => cases a <;> rfl
      | some b => cases a <;> cases b <;> rfl

theorem every_map_some (truths : List Bool) :
    every (truths.map some) = some (truths.all id) := by
  induction truths with
  | nil => rfl
  | cons truth truths ih =>
      rw [List.map_cons, every_cons, ih]
      cases truth <;> cases h : truths.all id <;> simp [both, h]

theorem some?_map_some (truths : List Bool) :
    some? (truths.map some) = some (truths.any id) := by
  induction truths with
  | nil => rfl
  | cons truth truths ih =>
      rw [some?] at ih
      rw [List.map_cons, some?, List.foldr_cons, ih]
      cases truth <;> cases h : truths.any id <;> simp [either, h]

/-- Two texts are equal for certain exactly when both are there and the same. -/
theorem truth_equal_beq (a x : Option String) :
    (Comparison.equal.truth (a.map .text) (x.map .text) == some true) =
      x.any fun value => a == some value := by
  rw [Bool.eq_iff_iff]
  cases a <;> cases x <;> simp [Comparison.truth, Comparison.holds]

/-! ## Functions -/

/-- The characters of a text from a position on, counted from one, all or some of them. -/
def cut (value : String) (start : Nat) (count : Option Nat) : String :=
  let kept := match count with
    | some count => value.toList.take (start + count - 1)
    | none => value.toList
  String.ofList (kept.drop (start - 1))

/-- The value of a function; missing when the arguments are not of the right kind. -/
def Function.apply (session : String → Option String) :
    Function → List (Option Scalar) → Option Scalar
  | .length, [value] => value.map fun v => .number v.spelling.length
  | .substring, [some value, some (.number start)] => some (.text (cut value.spelling start none))
  | .substring, [some value, some (.number start), some (.number count)] =>
      some (.text (cut value.spelling start (some count)))
  | .coalesce, values => values.findSome? id
  | .nullIf, [value, unwanted] =>
      if Comparison.equal.truth value unwanted = some true then none else value
  | .castToText, [value] => value.map fun v => .text v.spelling
  -- One missing operand makes the whole chain missing.
  | .concat, values =>
      (values.mapM id).map fun values => .text (String.join (values.map Scalar.spelling))
  | .session, [some (.text name)] => (session name).map .text
  | _, _ => none

/-! ## Order -/

/-- Sort keys in order; a missing one comes first. -/
def inOrder : List (Option Scalar) → List (Option Scalar) → Bool
  | a :: as, b :: bs =>
      -- Later keys count only where the earlier ones are equal.
      if a = b then inOrder as bs
      else match a, b with
        | none, _ => true
        | _, none => false
        | some a, some b => a.lt b
  | _, _ => true

/-! ## Values, conditions and queries -/

/-- The name that rows of the source go by. -/
def Source.name? : Source → Option String
  | .table name => some name
  | .union _ => none

mutual

def Value.denote : Value → Environment → Option Scalar
  | .null, _ => none
  | .text value, _ => some (.text value)
  | .number value, _ => some (.number value)
  -- A column that a row does not have is a missing value.
  | .column name, env => env.column name
  | .rowColumn row name, env => (env.row row).bind fun cells => cells.get name
  | .call function arguments, env =>
      function.apply env.database.session (denoteAll arguments env)
  -- An unknown condition takes the other branch, as a false one does.
  | .choose condition value otherwise, env =>
      if condition.truth env = some true then value.denote env else otherwise.denote env
  | .scalar query, env => ((query.answers env).head?.bind List.head?).bind (·.2)

def denoteAll : List Value → Environment → List (Option Scalar)
  | [], _ => []
  | value :: values, env => value.denote env :: denoteAll values env

def Condition.truth : Condition → Environment → Option Bool
  | .isNull value, env => some (value.denote env).isNone
  | .isIn value values, env =>
      some? ((denoteAll values env).map (Comparison.equal.truth (value.denote env)))
  | .compare comparison left right, env => comparison.truth (left.denote env) (right.denote env)
  | .conjunction conditions, env => every (truths conditions env)
  | .disjunction conditions, env => some? (truths conditions env)
  | .negation condition, env => (condition.truth env).map not

def truths : List Condition → Environment → List (Option Bool)
  | [], _ => []
  | condition :: conditions, env => condition.truth env :: truths conditions env

/-- What the query finds. -/
def Query.answers : Query → Environment → List Cells
  | .select results names source condition order limit, env =>
      let within := env.enter source.name?
      -- A row stays only if the condition is true for certain.
      let kept := (source.rows env).filter fun cells => condition.truth (within cells) == some true
      let sorted := kept.mergeSort fun a b =>
        inOrder (denoteAll order (within a)) (denoteAll order (within b))
      let taken := limit.elim sorted (sorted.take ·)
      taken.map fun cells => names.zip (denoteAll results (within cells))

def Source.rows : Source → Environment → List Cells
  | .table name, env => env.database.tables name
  | .union queries, env => allAnswers queries env

/-- What the queries find, one after another. -/
def allAnswers : List Query → Environment → List Cells
  | [], _ => []
  | query :: queries, env => query.answers env ++ allAnswers queries env

end

attribute [local simp] Value.denote denoteAll Condition.truth truths Query.answers Source.rows
  allAnswers

theorem denoteAll_eq_map (values : List Value) (env : Environment) :
    denoteAll values env = values.map (·.denote env) := by
  induction values with
  | nil => simp
  | cons value values ih => simp [ih]

end ChangeTracking.Sql.Engine
