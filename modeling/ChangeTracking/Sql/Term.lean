import ChangeTracking.Plan.Encoding
import ChangeTracking.Sql.Dialect

/-!
# SQL terms and tests

The part of SQL that triggers use: scalar terms, and tests, which may turn out unknown.
Plans are lowered to it once for all databases but for one choice, namely whether
alternatives that are all look-ups are ranked in a single query.  Parentheses are part
of the tree, so the text of a tree can be read in one way only.
-/

namespace ChangeTracking.Sql

open Plan (Expr Guard RowRole TextRule)
open Tracking (ValueClass)

mutual

/-- A scalar term. -/
inductive Term
  | null
  | literal (value : String)
  /-- A column of a trigger row. -/
  | rowColumn (row : RowRole) (column : String)
  /-- A local of the trigger. -/
  | localValue (name : String)
  /-- A session value that has not been cleared. -/
  | setting (key : String)
  /-- A session value as stored. -/
  | session (key : String)
  /-- The value that a query finds. -/
  | scalar (query : Select)
  /-- The first value that the queries find. -/
  | ranked (queries : List Select)
  | concat (parts : List Term)
  | coalesce (parts : List Term)
  | nullIfEmpty (value : Term)
  /-- The characters from a position on, counted from one, all or some of them. -/
  | substring (value : Term) (start : Nat) (count : Option Nat)
  | cast (valueClass : ValueClass) (value : Term)
  /-- The value of the first branch whose test is true. -/
  | choose (branches : List (Test × Term)) (otherwise : Term)

/-- A query for one column of the rows that have certain values. -/
inductive Select
  | from (entity column : String) (filters : List (String × Term))

/-- A test. -/
inductive Test
  | constant (value : Bool)
  | isNull (value : Term)
  | isNotNull (value : Term)
  | equal (left right : Term)
  | unequal (left right : Term)
  | isTrue (value : Term)
  | longerThan (limit : Nat) (value : Term)
  | conjunction (tests : List Test)
  | disjunction (tests : List Test)
  | negation (inner : Test)
  | parens (inner : Test)

end

namespace Term

/-! ## Text -/

mutual

def fragment (d : Dialect) : Term → Fragment
  | .null => .ofText "NULL"
  | .literal value => .ofText (Text.sqlLiteral value)
  | .rowColumn row name => d.rowColumn row name
  | .localValue name => d.localValue name
  | .setting key => d.setting key
  | .session key => d.sessionValue key
  | .scalar (.from entity name filters) =>
      .ofText ("(SELECT " ++ d.columnName name ++ " FROM " ++ d.tableName entity ++ " WHERE ")
        ++ .join " AND " (filterFragments d filters) ++ .ofText ")"
  | .ranked queries =>
      .ofText "(SELECT value FROM (" ++ .join " UNION ALL " (rankedFragments d 0 queries)
        ++ .ofText ") WHERE value IS NOT NULL ORDER BY priority LIMIT 1)"
  | .concat parts => Dialect.concat (fragments d parts)
  | .coalesce parts => Dialect.coalesce (fragments d parts)
  | .nullIfEmpty value => Dialect.nullIfEmpty (fragment d value)
  | .substring value start count => d.substring (fragment d value) start count
  | .cast valueClass value => d.textCast valueClass (fragment d value)
  | .choose branches otherwise =>
      .ofText "CASE" ++ branchFragment d branches
        ++ .ofText " ELSE " ++ fragment d otherwise ++ .ofText " END"

def fragments (d : Dialect) : List Term → List Fragment
  | [] => []
  | term :: terms => fragment d term :: fragments d terms

def filterFragments (d : Dialect) : List (String × Term) → List Fragment
  | [] => []
  | (name, value) :: filters =>
      (.ofText (d.columnName name ++ " = ") ++ fragment d value) :: filterFragments d filters

/-- The texts of queries, each of which tells its rank. -/
def rankedFragments (d : Dialect) (rank : Nat) : List Select → List Fragment
  | [] => []
  | .from entity name filters :: queries =>
      (.ofText ("SELECT " ++ d.columnName name ++ " AS value, " ++ toString rank
          ++ " AS priority FROM " ++ d.tableName entity ++ " WHERE ")
        ++ .join " AND " (filterFragments d filters)) :: rankedFragments d (rank + 1) queries

/-- The text of the branches of a choice. -/
def branchFragment (d : Dialect) : List (Test × Term) → Fragment
  | [] => ⟨[]⟩
  | (test, value) :: branches =>
      .ofText " WHEN " ++ testFragment d test ++ .ofText " THEN " ++ fragment d value
        ++ branchFragment d branches

def testFragment (d : Dialect) : Test → Fragment
  | .constant true => .ofText "1 = 1"
  | .constant false => .ofText "1 = 0"
  | .isNull value => fragment d value ++ .ofText " IS NULL"
  | .isNotNull value => fragment d value ++ .ofText " IS NOT NULL"
  | .equal left right => fragment d left ++ .ofText " = " ++ fragment d right
  | .unequal left right => fragment d left ++ .ofText " <> " ++ fragment d right
  | .isTrue value => d.isTrue (fragment d value)
  | .longerThan limit value =>
      Dialect.length (fragment d value) ++ .ofText (" > " ++ toString limit)
  | .conjunction tests => .join " AND " (testFragments d tests)
  | .disjunction tests => .join " OR " (testFragments d tests)
  | .negation inner => .ofText "NOT (" ++ testFragment d inner ++ .ofText ")"
  | .parens inner => .ofText "(" ++ testFragment d inner ++ .ofText ")"

def testFragments (d : Dialect) : List Test → List Fragment
  | [] => []
  | test :: tests => testFragment d test :: testFragments d tests

end

theorem fragments_eq_map (d : Dialect) (ts : List Term) :
    fragments d ts = ts.map (fragment d) := by
  induction ts with
  | nil => simp [fragments]
  | cons t ts ih => simp [fragments, ih]

theorem filterFragments_eq_map (d : Dialect) (filters : List (String × Term)) :
    filterFragments d filters =
      filters.map fun f => .ofText (d.columnName f.1 ++ " = ") ++ fragment d f.2 := by
  induction filters with
  | nil => simp [filterFragments]
  | cons f filters ih => simp [filterFragments, ih]

theorem testFragments_eq_map (d : Dialect) (ts : List Test) :
    testFragments d ts = ts.map (testFragment d) := by
  induction ts with
  | nil => simp [testFragments]
  | cons t ts ih => simp [testFragments, ih]

/-! ## Lowering -/

/-- The value cut to the length that a change record holds. -/
def truncated (value : Term) : Term :=
  .choose
    [(.longerThan Plan.maxValueLength value,
      .concat [.substring value 1 (some Plan.truncatedLength), .literal Plan.ellipsis])]
    value

def booleanName (value : Term) : Term :=
  .choose [(.isNull value, .null), (.isTrue value, .literal "true")] (.literal "false")

/-- The value under a text rule. -/
def encoded : TextRule → Term → Term
  | .booleanText, value => booleanName value
  | .truncated, value => truncated value
  | .cast valueClass, value => .cast valueClass value

/-- The parts of a key with separators between them. -/
def keyParts : List Term → List Term
  | [] => []
  | [part] => [part]
  | part :: parts => part :: .literal Plan.keySeparator :: keyParts parts

/-- A part of a phrase with the separator in front, or the empty text. -/
def phrasePart (part : Term) : Term :=
  .coalesce [.concat [.literal Plan.listSeparator, .nullIfEmpty part], .literal ""]

/-- The parts that are not empty, as one phrase: each brings its separator, and the first
separator is cut off. -/
def phrase : List Term → Term
  | [part] => .nullIfEmpty part
  | parts =>
      .nullIfEmpty (.substring (.concat (parts.map phrasePart))
        (Plan.listSeparator.length + 1) none)

/-- The query of a term that is one. -/
def query? : Term → Option Select
  | .scalar query => some query
  | _ => none

/-- The first part that is there: one ranked query where the dialect has that and all
parts, at least two, are queries. -/
def firstOf (d : Dialect) (parts : List Term) : Term :=
  match d.ranksAlternatives && 2 ≤ parts.length, parts.mapM query? with
  | true, some queries => .ranked queries
  | _, _ => .coalesce parts

mutual

def ofExpr (d : Dialect) : Expr → Term
  | .null => .null
  | .text value => .literal value
  | .column row name => .rowColumn row name
  | .variable name => .localValue name
  | .locale => .setting d.localeKey
  | .lookup entity name filters => .scalar (.from entity name (ofFilters d filters))
  | .keyJoin parts => .concat (keyParts (ofExprs d parts))
  | .listJoin parts => phrase (ofExprs d parts)
  | .firstOf parts => firstOf d (ofExprs d parts)
  | .encoded rule inner => encoded rule (ofExpr d inner)

def ofExprs (d : Dialect) : List Expr → List Term
  | [] => []
  | e :: es => ofExpr d e :: ofExprs d es

def ofFilters (d : Dialect) : List (String × Expr) → List (String × Term)
  | [] => []
  | (name, e) :: filters => (name, ofExpr d e) :: ofFilters d filters

end

theorem ofExprs_eq_map (d : Dialect) (es : List Expr) : ofExprs d es = es.map (ofExpr d) := by
  induction es with
  | nil => simp [ofExprs]
  | cons e es ih => simp [ofExprs, ih]

theorem ofFilters_eq_map (d : Dialect) (filters : List (String × Expr)) :
    ofFilters d filters = filters.map fun f => (f.1, ofExpr d f.2) := by
  induction filters with
  | nil => simp [ofFilters]
  | cons f filters ih => simp [ofFilters, ih]

end Term

namespace Test

/-- The terms differ, where nothing equals nothing and differs from everything else. -/
def changed (old new : Term) : Test :=
  .parens (.conjunction [
    .parens (.disjunction [.unequal old new, .isNull old, .isNull new]),
    .negation (.conjunction [.isNull old, .isNull new])])

/-- The session value is the text `true`; one that was never set is not. -/
def flag (name : String) : Test :=
  .equal (.coalesce [.session name, .literal "false"]) (.literal "true")

/-- One of the tests is true. -/
def anyOf (tests : List Test) : Test :=
  if tests.isEmpty then .constant false else .parens (.disjunction tests)

def allOf (tests : List Test) : Test :=
  if tests.isEmpty then .constant true else .parens (.conjunction tests)

mutual

def ofGuard (d : Dialect) : Guard → Test
  | .notNull value => .isNotNull (.ofExpr d value)
  | .changed old new => changed (.ofExpr d old) (.ofExpr d new)
  | .any guards => anyOf (ofGuards d guards)
  | .all guards => allOf (ofGuards d guards)
  | .negate inner => .negation (ofGuard d inner)
  | .flag name => flag name

def ofGuards (d : Dialect) : List Guard → List Test
  | [] => []
  | guard :: guards => ofGuard d guard :: ofGuards d guards

end

theorem ofGuards_eq_map (d : Dialect) (guards : List Guard) :
    ofGuards d guards = guards.map (ofGuard d) := by
  induction guards with
  | nil => simp [ofGuards]
  | cons guard guards ih => simp [ofGuards, ih]

end Test

namespace Dialect

/-- The text of a value expression. -/
def render (d : Dialect) (e : Expr) : Fragment := (Term.ofExpr d e).fragment d

def renderGuard (d : Dialect) (g : Guard) : Fragment := Term.testFragment d (Test.ofGuard d g)

end Dialect

end ChangeTracking.Sql
