/-!
# Syntax of SQL values and conditions

The part of SQL in which triggers compute, as trees: scalar values, conditions, and the
queries that a value may hold.
-/

namespace ChangeTracking.Sql.Engine

/-- The functions and operators that take values to a value. -/
inductive Function
  | length
  | substring
  | coalesce
  | nullIf
  | castToText
  | concat
  /-- The value of the session under a name. -/
  | session
  deriving DecidableEq, Repr

/-- How two values may be compared. -/
inductive Comparison
  | equal
  | unequal
  | greater
  deriving DecidableEq, Repr

mutual

/-- A scalar value. -/
inductive Value
  | null
  | text (value : String)
  | number (value : Nat)
  /-- A column of the row that the query at hand looks at. -/
  | column (name : String)
  /-- A column of a row with a name. -/
  | rowColumn (row column : String)
  | call (function : Function) (arguments : List Value)
  /-- The first value where the condition is true, and the second one otherwise. -/
  | choose (condition : Condition) (value otherwise : Value)
  /-- What a query finds. -/
  | scalar (query : Query)

/-- A condition, which may be unknown. -/
inductive Condition
  | isNull (value : Value)
  | isIn (value : Value) (values : List Value)
  | compare (comparison : Comparison) (left right : Value)
  | conjunction (conditions : List Condition)
  | disjunction (conditions : List Condition)
  | negation (condition : Condition)

/-- A query: the results for the rows of a source that meet a condition, in an order, and
at most so many of them. -/
inductive Query
  | select (results : List Value) (names : List String) (source : Source)
      (condition : Condition) (order : List Value) (limit : Option Nat)

/-- Where a query finds its rows. -/
inductive Source
  | table (name : String)
  /-- The results of queries, one after another. -/
  | union (queries : List Query)

end

end ChangeTracking.Sql.Engine
