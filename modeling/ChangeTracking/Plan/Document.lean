import ChangeTracking.Json.Record
import ChangeTracking.Plan.Origin
import ChangeTracking.Plan.TriggerSet

/-!
# Plan documents

The JSON form of expressions, guards and trigger sets.  An expression or a guard is an
array whose first item is a word for its kind; a trigger set is an object.
-/

namespace ChangeTracking.Plan

open Tracking (ValueClass)

/-! ## Words -/

namespace RowRole

def names : List (String × RowRole) :=
  [("old", old), ("new", new), ("record", record), ("subject", subject)]

def name : RowRole → String
  | old => "old"
  | new => "new"
  | record => "record"
  | subject => "subject"

end RowRole

def Operation.ofName? (name : String) : Option Operation :=
  all.find? (·.modification == name)

/-- The word for a text rule. -/
def TextRule.name : TextRule → String
  | booleanText => "bool"
  | truncated => "trunc"
  | cast valueClass => "cast:" ++ valueClass.name

/-- The text rule with this word. -/
def TextRule.ofName? (name : String) : Option TextRule :=
  if name = "bool" then some .booleanText
  else if name = "trunc" then some .truncated
  else
    ((Text.after? "cast:" name).bind fun word => ValueClass.names.lookup word).map .cast

/-- The words for the policies for deletes. -/
def policyNames : List (String × DeletePolicy) :=
  [("Cascade", .cascade), ("Preserve", .preserve)]

/-- The word for a policy for deletes. -/
def policyName : DeletePolicy → String
  | .cascade => "Cascade"
  | .preserve => "Preserve"

/-! ## Expressions -/

namespace Expr

mutual

def toJson : Expr → Json
  | .null => .texts ["null"]
  | .text value => .texts ["text", value]
  | .column row name => .texts ["col", row.name, name]
  | .variable name => .texts ["var", name]
  | .locale => .texts ["locale"]
  | .lookup entity name filters =>
      .array [.text "lookup", .text entity, .text name, .array (filtersToJson filters)]
  | .keyJoin parts => .array [.text "key", .array (listToJson parts)]
  | .listJoin parts => .array [.text "join", .array (listToJson parts)]
  | .firstOf parts => .array [.text "first", .array (listToJson parts)]
  | .encoded rule inner => .array [.text "enc", .text rule.name, toJson inner]

def listToJson : List Expr → List Json
  | [] => []
  | e :: es => toJson e :: listToJson es

def filtersToJson : List (String × Expr) → List Json
  | [] => []
  | (name, e) :: filters => .array [.text name, toJson e] :: filtersToJson filters

end

mutual

def ofJson? : Json → Option Expr
  | .array (.string (some word) :: arguments) => ofArguments? word arguments
  | _ => none

/-- Read an expression of the kind with this word. -/
def ofArguments? (word : String) : List Json → Option Expr
  | [] =>
      if word = "null" then some .null
      else if word = "locale" then some .locale
      else none
  | [.string (some s)] =>
      if word = "text" then some (.text s)
      else if word = "var" then some (.variable s)
      else none
  | [.array parts] =>
      if word = "key" then (listOfJson? parts).map .keyJoin
      else if word = "join" then (listOfJson? parts).map .listJoin
      else if word = "first" then (listOfJson? parts).map .firstOf
      else none
  | [.string (some s), .string (some name)] =>
      if word = "col" then (RowRole.names.lookup s).map fun row => .column row name else none
  | [.string (some rule), inner] =>
      if word = "enc" then
        (TextRule.ofName? rule).bind fun rule => (ofJson? inner).map (.encoded rule)
      else none
  | [.string (some entity), .string (some name), .array filters] =>
      if word = "lookup" then (filtersOfJson? filters).map (.lookup entity name) else none
  | _ => none

def listOfJson? : List Json → Option (List Expr)
  | [] => some []
  | value :: values =>
      (ofJson? value).bind fun e => (listOfJson? values).map fun es => e :: es

def filtersOfJson? : List Json → Option (List (String × Expr))
  | [] => some []
  | .array [.string (some name), value] :: values =>
      (ofJson? value).bind fun e => (filtersOfJson? values).map fun rest => (name, e) :: rest
  | _ => none

end

end Expr

/-! ## Guards -/

namespace Guard

mutual

def toJson : Guard → Json
  | .notNull value => .array [.text "notnull", value.toJson]
  | .changed old new => .array [.text "changed", old.toJson, new.toJson]
  | .any guards => .array [.text "any", .array (listToJson guards)]
  | .all guards => .array [.text "all", .array (listToJson guards)]
  | .negate inner => .array [.text "not", toJson inner]
  | .flag name => .texts ["flag", name]

def listToJson : List Guard → List Json
  | [] => []
  | guard :: guards => toJson guard :: listToJson guards

end

mutual

/-- Read a guard.  Two more words stand for a disjunction and a conjunction in which one
guard alone stands for itself. -/
def ofJson? : Json → Option Guard
  | .array [.string (some word), .string (some name)] =>
      if word = "flag" then some (.flag name) else none
  | .array [.string (some word), .array items] =>
      if word = "any" then (listOfJson? items).map .any
      else if word = "all" then (listOfJson? items).map .all
      else if word = "any1" then (listOfJson? items).map anyOf
      else if word = "all1" then (listOfJson? items).map allOf
      else if word = "notnull" then (Expr.ofJson? (.array items)).map .notNull
      else if word = "not" then (ofJson? (.array items)).map .negate
      else none
  | .array [.string (some word), old, new] =>
      if word = "changed" then
        (Expr.ofJson? old).bind fun old => (Expr.ofJson? new).map (.changed old)
      else none
  | _ => none

def listOfJson? : List Json → Option (List Guard)
  | [] => some []
  | value :: values =>
      (ofJson? value).bind fun guard =>
        (listOfJson? values).map fun guards => guard :: guards

end

end Guard

/-! ## Origins -/

/-- Read where a record comes from: a row, or an entity with the values of columns. -/
def Origin.ofJson? : Json → Option Origin
  | .string (some name) => (RowRole.names.lookup name).map row
  | .array [.string (some entity), .array filters] =>
      (Expr.filtersOfJson? filters).map (keyed entity)
  | _ => none

/-! ## Trigger sets -/

def Identity.toJson (i : Identity) : Json :=
  .record [
    ("entity_key", i.entityKey.toJson),
    ("object_id", i.objectId.toJson),
    ("root_key", i.rootKey.toJson),
    ("root_object_id", i.rootObjectId.toJson),
    ("root_entity", .ofOption .text i.rootEntity)]

namespace TrackedColumn

/-- The fields of a tracked column. -/
def fieldNames : List String :=
  ["attribute", "declaredType", "watched", "value", "label", "skipFlag"]

def ofJson? (value : Json) : Option TrackedColumn := do
  let fields ← value.fields? fieldNames
  return {
    name := ← fields.required "attribute" Json.text?
    type := ← fields.required "declaredType" Json.text?
    watched := ← fields.required "watched" Json.texts?
    value := ← fields.required "value" Expr.ofJson?
    label := ← fields.optional "label" Expr.ofJson?
    skipFlag := ← fields.required "skipFlag" Json.text?
  }

def toJson (c : TrackedColumn) : Json :=
  .record [
    ("attribute", .text c.name),
    ("declaredType", .text c.type),
    ("watched", .texts c.watched),
    ("value", c.value.toJson),
    ("label", .ofOption Expr.toJson c.label),
    ("skipFlag", .text c.skipFlag)]

end TrackedColumn

namespace Owner

def ofJson? (value : Json) : Option Owner := do
  let fields ← value.fields? ["entity", "key", "objectId"]
  return {
    entity := ← fields.required "entity" Json.text?
    key := ← fields.required "key" Expr.ofJson?
    identifier := ← fields.optional "objectId" Expr.ofJson?
  }

def toJson (o : Owner) : Json :=
  .record [
    ("entity", .text o.entity),
    ("key", o.key.toJson),
    ("objectId", .ofOption Expr.toJson o.identifier)]

end Owner

namespace TriggerSet

/-- The fields of a trigger set. -/
def fieldNames : List String :=
  ["entity", "setName", "serviceEntity", "primaryKey", "key", "objectId", "root", "columns",
    "operations", "deleteMode", "skipFlags", "changesTable", "changeLogTable"]

/-- Read a trigger set; the two tables are the standard ones when they are left out. -/
def ofJson? (value : Json) : Option TriggerSet := do
  let fields ← value.fields? fieldNames
  let standard : Settings := {}
  return {
    entity := ← fields.required "entity" Json.text?
    collection := ← fields.optional "setName" Json.text?
    service := ← fields.optional "serviceEntity" Json.text?
    primaryKey := ← fields.required "primaryKey" Json.texts?
    key := ← fields.required "key" Expr.ofJson?
    identifier := ← fields.optional "objectId" Expr.ofJson?
    owner := ← fields.optional "root" Owner.ofJson?
    columns := ← fields.required "columns" (Json.list? TrackedColumn.ofJson?)
    operations := ← fields.required "operations"
      (Json.list? fun v => (Json.text? v).bind Operation.ofName?)
    deletePolicy := ← fields.required "deleteMode" (Json.choice? policyNames)
    skipFlags := ← fields.required "skipFlags" Json.texts?
    changesTable := ← fields.defaulted "changesTable" standard.changesTable Json.text?
    headerTable := ← fields.defaulted "changeLogTable" standard.headerTable Json.text?
  }

/-- The members of the JSON form of a trigger set. -/
def members (s : TriggerSet) : List (String × Json) :=
  [("entity", .text s.entity),
    ("setName", .ofOption .text s.collection),
    ("serviceEntity", .ofOption .text s.service),
    ("primaryKey", .texts s.primaryKey),
    ("key", s.key.toJson),
    ("objectId", .ofOption Expr.toJson s.identifier),
    ("root", .ofOption Owner.toJson s.owner),
    ("columns", .array (s.columns.map TrackedColumn.toJson)),
    ("operations", .texts (s.operations.map Operation.modification)),
    ("deleteMode", .text (policyName s.deletePolicy)),
    ("skipFlags", .texts s.skipFlags),
    ("changesTable", .text s.changesTable),
    ("changeLogTable", .text s.headerTable)]

/-- The JSON form of what an operation does to one column. -/
def columnToJson (op : Operation) (c : TrackedColumn) : Json :=
  .record [
    ("condition", (c.condition op).toJson),
    ("guarded", (c.guarded op).toJson),
    ("transition", .array ((c.transition op).toList.map Expr.toJson))]

/-- The JSON form of what an operation of the set does. -/
def operationToJson (s : TriggerSet) (op : Operation) : Json :=
  .record [
    ("op", .text op.modification),
    ("event", .text op.event),
    ("suffix", .text op.suffix),
    ("enabled", .bool (s.isEnabled op)),
    ("anyChange", (s.anyChange op).toJson),
    ("invocation", (s.identity op.subject).toJson),
    ("columns", .array (s.columns.map (columnToJson op)))]

end TriggerSet

end ChangeTracking.Plan
