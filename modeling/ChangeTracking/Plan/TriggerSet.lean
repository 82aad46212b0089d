import ChangeTracking.Plan.Encoding
import ChangeTracking.Settings

/-!
# Trigger sets

Everything that the triggers on one table record: the columns with their values, labels
and conditions, and the identity that each record carries.  A set says nothing about any
database; its expressions read the row to be bound.
-/

namespace ChangeTracking.Plan

/-- A row-level operation. -/
inductive Operation
  | create
  | update
  | delete
  deriving DecidableEq, Repr

namespace Operation

def all : List Operation := [create, update, delete]

/-- The kind of change that is recorded. -/
def modification : Operation → String
  | create => "create"
  | update => "update"
  | delete => "delete"

/-- The trigger event. -/
def event : Operation → String
  | create => "INSERT"
  | update => "UPDATE"
  | delete => "DELETE"

/-- The last part of the trigger's name. -/
def suffix : Operation → String
  | create => "CREATE"
  | update => "UPDATE"
  | delete => "DELETE"

/-- The row that the operation is about. -/
def subject : Operation → RowRole
  | create => .new
  | update => .new
  | delete => .old

end Operation

/-- The four values of a transition. -/
structure Transition where
  before : Expr
  after : Expr
  labelBefore : Expr
  labelAfter : Expr
  deriving Repr

/-- The values in the order in which a record holds them. -/
def Transition.toList (t : Transition) : List Expr :=
  [t.before, t.after, t.labelBefore, t.labelAfter]

/-- A tracked column. -/
structure TrackedColumn where
  name : String
  type : String
  /-- The columns compared by an update; when there are none, the values are. -/
  watched : List String
  value : Expr
  label : Option Expr
  /-- The session flag that suppresses the column. -/
  skipFlag : String
  deriving Repr

namespace TrackedColumn

/-- The value read from a row. -/
def valueOn (c : TrackedColumn) (row : RowRole) : Expr := c.value.bind row

/-- The label read from a row. -/
def labelOn (c : TrackedColumn) (row : RowRole) : Expr :=
  match c.label with
  | some label => label.bind row
  | none => .null

def condition (c : TrackedColumn) : Operation → Guard
  | .create => .present (c.valueOn .new)
  | .delete => .present (c.valueOn .old)
  | .update =>
      if c.watched.isEmpty then .changed (c.valueOn .old) (c.valueOn .new)
      else .anyOf (c.watched.map columnChanged)

/-- The operation records the column: it changes it, and no flag suppresses it. -/
def guarded (c : TrackedColumn) (op : Operation) : Guard :=
  .allOf [c.condition op, .negate (.flag c.skipFlag)]

/-- What the operation records for the column. -/
def transition (c : TrackedColumn) : Operation → Transition
  | .create => ⟨.null, c.valueOn .new, .null, c.labelOn .new⟩
  | .update => ⟨c.valueOn .old, c.valueOn .new, c.labelOn .old, c.labelOn .new⟩
  | .delete => ⟨c.valueOn .old, .null, c.labelOn .old, .null⟩

end TrackedColumn

/-- The owner of a composition child, as seen from the child. -/
structure Owner where
  entity : String
  key : Expr
  identifier : Option Expr
  deriving Repr

/-- The values computed once for each invocation. -/
structure Identity where
  entityKey : Expr
  objectId : Expr
  rootEntity : Option String
  rootKey : Expr
  rootObjectId : Expr
  deriving Repr

namespace Identity

/-- The name of the local that holds the entity key. -/
def entityKeyName : String := "entity_key"

/-- The computed values with the names of their locals, in order. -/
def values (i : Identity) : List (String × Expr) :=
  [(entityKeyName, i.entityKey), ("object_id", i.objectId), ("root_key", i.rootKey),
    ("root_object_id", i.rootObjectId)]

/-- A local in place of a value; nothing stays nothing. -/
def localFor (name : String) (value : Expr) : Expr :=
  if value.isNull then .null else .variable name

/-- The same identity read from its locals. -/
def fromLocals (i : Identity) : Identity where
  entityKey := localFor entityKeyName i.entityKey
  objectId := localFor "object_id" i.objectId
  rootEntity := i.rootEntity
  rootKey := localFor "root_key" i.rootKey
  rootObjectId := localFor "root_object_id" i.rootObjectId

end Identity

/-- The triggers on one table. -/
structure TriggerSet where
  /-- The entity whose table has the triggers. -/
  entity : String
  /-- The composition element, for the triggers on the table of its children. -/
  collection : Option String
  service : Option String
  primaryKey : List String
  key : Expr
  identifier : Option Expr
  owner : Option Owner
  columns : List TrackedColumn
  operations : List Operation
  deletePolicy : DeletePolicy
  /-- The session flags that suppress the whole set. -/
  skipFlags : List String
  changesTable : String
  headerTable : String
  deriving Repr

namespace TriggerSet

def isEnabled (s : TriggerSet) (op : Operation) : Bool := s.operations.contains op

/-- A flag suppresses the whole set. -/
def skipGuard (s : TriggerSet) : Guard := .anyOf (s.skipFlags.map .flag)

/-- The operation removes history instead of recording anything. -/
def purges (s : TriggerSet) (op : Operation) : Bool :=
  op == .delete && s.deletePolicy == .cascade

def anyChange (s : TriggerSet) (op : Operation) : Guard :=
  .anyOf (s.columns.map fun column => column.guarded op)

/-- An optional value read from a row. -/
def bound (row : RowRole) : Option Expr → Expr
  | some e => e.bind row
  | none => .null

/-- The identity of the records of one invocation, read from a row. -/
def identity (s : TriggerSet) (row : RowRole) : Identity where
  entityKey := s.key.bind row
  objectId := bound row s.identifier
  rootEntity := s.owner.map (·.entity)
  rootKey := bound row (s.owner.map (·.key))
  rootObjectId := bound row (s.owner.bind (·.identifier))

/-- The common beginning of the names of the set's artifacts. -/
def stem (s : TriggerSet) : String :=
  Text.replaceChar '.' "_" s.entity ++ "_CT"
    ++ match s.collection with
      | some element => "_" ++ element
      | none => ""

end TriggerSet

end ChangeTracking.Plan
