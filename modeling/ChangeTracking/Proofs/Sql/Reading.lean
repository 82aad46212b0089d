import ChangeTracking.Proofs.Sql.Syntax
import ChangeTracking.Proofs.Sql.Tokens

/-!
# Reading SQL

From tokens to trees.  A reader keeps what it has read since each bracket that is still
open.  Where a bracket closes, only operators of that depth are left in what stands
between, and the weakest operator splits it first: `OR`, `AND`, `NOT`, comparisons and at
last `||`.
-/

namespace ChangeTracking.Sql.Engine

/-- What stands between two brackets: trees that are read already, and tokens that join
them. -/
inductive Item
  | value (value : Value)
  | condition (condition : Condition)
  /-- Queries in brackets, joined by `UNION ALL`. -/
  | queries (queries : List Query)
  /-- Values in brackets. -/
  | values (values : List Value)
  | mark (token : Token)

/-- How weakly a word binds: the words of values, of comparisons, the two connectives, and
the words that make the clauses of a query or a choice. -/
def wordRank (word : String) : Nat :=
  if word = "IS" || word = "IN" || word = "NOT" then 1
  else if word = "AND" then 2
  else if word = "OR" then 3
  else if ["SELECT", "AS", "FROM", "WHERE", "ORDER", "BY", "LIMIT", "UNION", "ALL", "WHEN",
    "THEN", "ELSE"].contains word then 4
  else 0

def Token.rank : Token → Nat
  | equals | differs | exceeds => 1
  | comma => 4
  | word w => wordRank w
  | _ => 0

namespace Item

/-- How weakly an item binds what stands on both sides. -/
def rank : Item → Nat
  | condition _ => 1
  | mark token => token.rank
  | _ => 0

def isMark (token : Token) : Item → Bool
  | mark other => other == token
  | _ => false

end Item

/-! ## Values -/

/-- A value that is no chain. -/
def operand? : List Item → Option Value
  | [.value value] => some value
  | [.queries [query]] => some (.scalar query)
  | [.mark (.name name)] => some (.column name)
  | [.mark (.word word)] =>
      -- A word that no clause, connective or comparison uses is the name of a column.
      if word = "NULL" then some .null
      else if wordRank word = 0 then some (.column word)
      else none
  | [.mark (.word row), .mark .dot, .mark (.name name)] => some (.rowColumn row name)
  | _ => none

/-- The operands of a chain of values. -/
def operands? (items : List Item) : Option (List Value) :=
  (items.splitOnP (·.isMark .bars)).mapM operand?

def chained : List Value → Value
  | [value] => value
  | values => .call .concat values

def value? (items : List Item) : Option Value := (operands? items).map chained

def values? (items : List Item) : Option (List Value) :=
  (items.splitOnP (·.isMark .comma)).mapM value?

/-! ## Conditions -/

/-- The comparison that a token stands for. -/
def Token.comparison? : Token → Option Comparison
  | equals => some .equal
  | differs => some .unequal
  | exceeds => some .greater
  | _ => none

/-- What is asked of a value. -/
def asked? (left : Value) : List Item → Option Condition
  | [.mark (.word "IS"), .mark (.word "NULL")] => some (.isNull left)
  | [.mark (.word "IS"), .mark (.word "NOT"), .mark (.word "NULL")] =>
      some (.negation (.isNull left))
  | [.mark (.word "IN"), .values values] => some (.isIn left values)
  | .mark token :: right =>
      token.comparison?.bind fun comparison => (value? right).map (.compare comparison left)
  | _ => none

def comparison? (items : List Item) : Option Condition :=
  (value? (items.takeWhile (·.rank == 0))).bind fun left =>
    asked? left (items.dropWhile (·.rank == 0))

def plainCondition? : List Item → Option Condition
  | .mark (.word "NOT") :: items => (plainCondition? items).map .negation
  | [.condition condition] => some condition
  | items => comparison? items

/-- A condition of conditions, unless there is one alone. -/
def joined (connective : List Condition → Condition) : List Condition → Condition
  | [condition] => condition
  | conditions => connective conditions

def conjunction? (items : List Item) : Option Condition :=
  ((items.splitOnP (·.rank == 2)).mapM plainCondition?).map (joined .conjunction)

def condition? (items : List Item) : Option Condition :=
  ((items.splitOnP (·.rank == 3)).mapM conjunction?).map (joined .disjunction)

/-! ## Choices and queries -/

/-- The branch of a choice in front of the rest of the choice. -/
def branch? (items : List Item) (otherwise : Value) : Option Value :=
  match items.splitOnP (·.isMark (.word "THEN")) with
  | [condition, value] =>
      (condition? condition).bind fun condition =>
        (value? value).map fun value => .choose condition value otherwise
  | _ => none

/-- What stands between `CASE` and `END`. -/
def choice? (items : List Item) : Option Value :=
  match items.splitOnP (·.isMark (.word "ELSE")) with
  | [branches, otherwise] =>
      match branches.splitOnP (·.isMark (.word "WHEN")) with
      -- Nothing stands between `CASE` and the first `WHEN`.
      | [] :: branches => (value? otherwise).bind fun otherwise => branches.foldrM branch? otherwise
      | _ => none
  | _ => none

/-- A result of a query, with its name. -/
def result? (items : List Item) : Option (Value × String) :=
  match items.splitOnP (·.isMark (.word "AS")) with
  | [value, [.mark (.word name)]] => (value? value).map fun value => (value, name)
  | [value] => (value? value).map fun value => (value, "")
  | _ => none

/-- Where a query finds its rows. -/
def source? : List Item → Option Source
  | [.mark (.name name)] => some (.table name)
  | [.queries queries] => some (.union queries)
  | _ => none

/-- A query up to its order. -/
def select? (order : List Value) (limit : Option Nat) : List Item → Option Query
  | .mark (.word "SELECT") :: items =>
      match items.splitOnP (·.isMark (.word "FROM")) with
      | [results, items] =>
          match items.splitOnP (·.isMark (.word "WHERE")) with
          | [source, condition] => do
              let results ← (results.splitOnP (·.isMark .comma)).mapM result?
              let source ← source? source
              let condition ← condition? condition
              some (.select (results.map (·.1)) (results.map (·.2)) source condition order limit)
          | _ => none
      | _ => none
  | _ => none

/-- A query without an order that `UNION ALL` joins to those before it. -/
def further? : List Item → Option Query
  | .mark (.word "ALL") :: items => select? [] none items
  | _ => none

def order? : List Item → Option (List Value)
  | .mark (.word "BY") :: items => values? items
  | _ => none

def limit? : List Item → Option Nat
  | [.value (.number limit)] => some limit
  | _ => none

/-- Queries: either one that may have an order, or several that have none. -/
def queries? (items : List Item) : Option (List Query) :=
  match items.splitOnP (·.isMark (.word "UNION")) with
  | [items] =>
      match items.splitOnP (·.isMark (.word "LIMIT")) with
      | [items] => (select? [] none items).map ([·])
      | [items, limit] =>
          -- A limit is read only behind an order, which decides what it leaves.
          match items.splitOnP (·.isMark (.word "ORDER")) with
          | [items, order] => do
              let limit ← limit? limit
              let order ← order? order
              let query ← select? order (some limit) items
              some [query]
          | _ => none
      | _ => none
  | first :: rest => do
      let first ← select? [] none first
      let rest ← rest.mapM further?
      some (first :: rest)
  | [] => none

/-! ## Brackets -/

def Function.named? : String → Option Function
  | "LENGTH" => some .length
  | "SUBSTR" => some .substring
  | "COALESCE" => some .coalesce
  | "NULLIF" => some .nullIf
  | "CAST" => some .castToText
  | "SESSION_CONTEXT" => some .session
  | _ => none

/-- The function takes so many arguments. -/
def Function.takes : Function → Nat → Bool
  | length, count | castToText, count | session, count => count == 1
  | nullIf, count => count == 2
  | substring, count => count == 2 || count == 3
  | coalesce, count => 2 ≤ count
  | concat, _ => false

/-- The function of what stands between its brackets. -/
def call? (function : Function) (items : List Item) : Option Value :=
  match function, items.splitOnP (·.isMark (.word "AS")) with
  -- `AS` stands in no other call than a cast.
  | .castToText, [items, [.mark (.word "TEXT")]] =>
      (value? items).map fun value => .call .castToText [value]
  | .castToText, _ => none
  | _, _ =>
      (values? items).bind fun values =>
        if function.takes values.length then some (.call function values) else none

/-- What stands between brackets that do not follow the name of a function. -/
def group? (items : List Item) : Option Item :=
  if items.any (·.isMark (.word "SELECT")) then (queries? items).map .queries
  else if items.any (·.isMark .comma) then (values? items).map .values
  else if items.any (1 ≤ ·.rank) then (condition? items).map .condition
  else (value? items).map .value

/-- How a bracket was opened. -/
inductive Bracket
  | plain
  | call (function : Function)
  | choice

/-- What the brackets hold. -/
def Bracket.close? : Bracket → List Item → Option Item
  | plain, items => group? items
  | call function, items => (call? function items).map .value
  | choice, items => (choice? items).map .value

/-! ## The reader -/

/-- An open bracket and what was read since, newest first. -/
structure Frame where
  bracket : Bracket
  items : List Item

def Frame.push (frame : Frame) (item : Item) : Frame :=
  { frame with items := item :: frame.items }

/-- The state of the reader. -/
structure Reader where
  /-- The function whose name was read last. -/
  called : Option Function
  /-- The open brackets, innermost first. -/
  frames : List Frame

namespace Reader

def enter (frames : List Frame) (bracket : Bracket) : Reader :=
  ⟨none, ⟨bracket, []⟩ :: frames⟩

def push? (item : Item) : List Frame → Option Reader
  | [] => none
  | frame :: frames => some ⟨none, frame.push item :: frames⟩

def close? : List Frame → Option Reader
  | [] => none
  | frame :: frames =>
      (frame.bracket.close? frame.items.reverse).bind fun item => push? item frames

def word? (word : String) (frames : List Frame) : Option Reader :=
  if word = "CASE" then some (enter frames .choice)
  else if word = "END" then
    match frames with
    | ⟨.choice, _⟩ :: _ => close? frames
    | _ => none
  else match Function.named? word with
    | some function => some ⟨some function, frames⟩
    | none => push? (.mark (.word word)) frames

def step (reader : Reader) (token : Token) : Option Reader :=
  match reader.called, token with
  | some function, .opening => some (enter reader.frames (.call function))
  -- The name of a function stands only in front of its bracket.
  | some _, _ => none
  | none, .opening => some (enter reader.frames .plain)
  | none, .closing =>
      match reader.frames with
      | ⟨.choice, _⟩ :: _ => none
      | frames => close? frames
  | none, .word word => word? word reader.frames
  | none, .text value => push? (.value (.text value)) reader.frames
  | none, .number value => push? (.value (.number value)) reader.frames
  | none, token => push? (.mark token) reader.frames

def run (reader : Reader) (ts : List Token) : Option Reader := ts.foldlM step reader

def items? (sql : String) : Option (List Item) := do
  let ts ← tokens sql
  match ← run ⟨none, [⟨.plain, []⟩]⟩ ts with
  | ⟨none, [frame]⟩ => some frame.items.reverse
  | _ => none

end Reader

/-- The value that a text stands for. -/
def readValue (sql : String) : Option Value := (Reader.items? sql).bind value?

/-- The condition that a text stands for. -/
def readCondition (sql : String) : Option Condition := (Reader.items? sql).bind condition?

end ChangeTracking.Sql.Engine
