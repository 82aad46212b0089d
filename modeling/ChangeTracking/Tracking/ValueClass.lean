import ChangeTracking.Text.Chars

/-!
# Classes of values

The declared type of an element matters only through the class of its values, which
decides how they are written as text.
-/

namespace ChangeTracking.Tracking

/-- The class of the values of a declared type. -/
inductive ValueClass
  | string | largeString | boolean | integer | decimal | double
  | date | time | dateTime | timestamp | uuid | binary
  | association | composition | other
  deriving DecidableEq, Repr

namespace ValueClass

/-- The declared types that have a class of their own. -/
def declared : List (String × ValueClass) :=
  [("String", string), ("LargeString", largeString), ("Boolean", boolean),
    ("Integer", integer), ("Int16", integer), ("Int32", integer), ("Int64", integer),
    ("UInt8", integer), ("Integer64", integer), ("Decimal", decimal),
    ("DecimalFloat", decimal), ("Double", double), ("Date", date), ("Time", time),
    ("DateTime", dateTime), ("Timestamp", timestamp), ("UUID", uuid), ("Binary", binary),
    ("LargeBinary", binary), ("Association", association), ("Composition", composition)]

/-- The class of a declared type, with or without the prefix of the built-in types. -/
def ofDeclared (type : String) : ValueClass :=
  (declared.lookup ((Text.after? "cds." type).getD type)).getD other

/-- Text, whose length is limited. -/
def isText : ValueClass → Bool
  | string | largeString => true
  | _ => false

/-- Points in time and parts of them. -/
def isTemporal : ValueClass → Bool
  | date | time | dateTime | timestamp => true
  | _ => false

/-- The names of the classes, in declared order. -/
def names : List (String × ValueClass) :=
  [("String", string), ("LargeString", largeString), ("Boolean", boolean),
    ("Integer", integer), ("Decimal", decimal), ("Double", double), ("Date", date),
    ("Time", time), ("DateTime", dateTime), ("Timestamp", timestamp), ("Uuid", uuid),
    ("Binary", binary), ("Association", association), ("Composition", composition),
    ("Other", other)]

/-- The position of the class in declared order. -/
def index : ValueClass → Nat
  | string => 0 | largeString => 1 | boolean => 2 | integer => 3 | decimal => 4
  | double => 5 | date => 6 | time => 7 | dateTime => 8 | timestamp => 9 | uuid => 10
  | binary => 11 | association => 12 | composition => 13 | other => 14

def name : ValueClass → String
  | string => "String" | largeString => "LargeString" | boolean => "Boolean"
  | integer => "Integer" | decimal => "Decimal" | double => "Double" | date => "Date"
  | time => "Time" | dateTime => "DateTime" | timestamp => "Timestamp" | uuid => "Uuid"
  | binary => "Binary" | association => "Association" | composition => "Composition"
  | other => "Other"

end ValueClass

end ChangeTracking.Tracking
