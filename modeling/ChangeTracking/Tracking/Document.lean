import ChangeTracking.Json.Reader
import ChangeTracking.Json.Record
import ChangeTracking.Tracking.Descriptor

/-!
# Descriptor documents

The JSON form of tracking descriptors, in which snapshots are handed from one tool to
another.  Every field is written; one that may be missing may be left out.
-/

namespace ChangeTracking.Tracking

open Schema (ColumnPair)

def pairOfJson? (value : Json) : Option ColumnPair := do
  let fields ← value.fields? ["target_column", "source_column"]
  return {
    target := ← fields.required "target_column" Json.text?
    source := ← fields.required "source_column" Json.text?
  }

def pairToJson (pair : ColumnPair) : Json :=
  .record [("target_column", .text pair.target), ("source_column", .text pair.source)]

namespace Relation

def names : List (String × Relation) :=
  [("None", none), ("Reference", reference), ("OwnedSubrecord", ownedSubrecord)]

def name : Relation → String
  | none => "None"
  | reference => "Reference"
  | ownedSubrecord => "OwnedSubrecord"

end Relation

namespace Attribute

/-- The fields of an attribute in declared order. -/
def fieldNames : List String :=
  ["name", "declared_type", "value_type", "relationship", "target", "foreign_key_fields",
    "on_condition_fields", "label_paths"]

def ofJson? (value : Json) : Option Attribute := do
  let fields ← value.fields? fieldNames
  return {
    name := ← fields.required "name" Json.text?
    type := ← fields.required "declared_type" Json.text?
    valueClass := ← fields.required "value_type" (Json.choice? ValueClass.names)
    relation := ← fields.required "relationship" (Json.choice? Relation.names)
    target := ← fields.optional "target" Json.text?
    foreignKeys := ← fields.required "foreign_key_fields" Json.texts?
    onTerms := ← fields.required "on_condition_fields" (Json.list? pairOfJson?)
    labelPaths := ← fields.required "label_paths" Json.texts?
  }

def toJson (a : Attribute) : Json :=
  .record [
    ("name", .text a.name),
    ("declared_type", .text a.type),
    ("value_type", .text a.valueClass.name),
    ("relationship", .text a.relation.name),
    ("target", .ofOption .text a.target),
    ("foreign_key_fields", .texts a.foreignKeys),
    ("on_condition_fields", .array (a.onTerms.map pairToJson)),
    ("label_paths", .texts a.labelPaths)]

end Attribute

namespace IdentityField

/-- Read a field of an object identifier. -/
def ofJson? (value : Json) : Option IdentityField := do
  let fields ← value.fields? ["path", "is_locally_stored"]
  return {
    path := ← fields.required "path" Json.text?
    onRow := ← fields.required "is_locally_stored" Json.bool?
  }

/-- The JSON form of a field of an object identifier. -/
def toJson (f : IdentityField) : Json :=
  .record [("path", .text f.path), ("is_locally_stored", .bool f.onRow)]

def listOfJson? (value : Json) : Option (List IdentityField) := do
  let fields ← value.fields? ["fields"]
  fields.required "fields" (Json.list? ofJson?)

def listToJson (fields : List IdentityField) : Json :=
  .record [("fields", .array (fields.map toJson))]

end IdentityField

namespace RootLink

/-- Read a link, which is an object whose only member is named after its kind. -/
def ofJson? : Json → Option RootLink
  | .object [(some "ForeignKeys", value)] => do
      let fields ← value.fields? ["joins"]
      return foreignKeys (← fields.required "joins" (Json.list? pairOfJson?))
  | .object [(some "BackReference", value)] => do
      let fields ← value.fields? ["field", "joins"]
      let field ← fields.required "field" Json.text?
      return backReference field (← fields.required "joins" (Json.list? pairOfJson?))
  | _ => none

def toJson : RootLink → Json
  | foreignKeys joins =>
      .record [("ForeignKeys", .record [("joins", .array (joins.map pairToJson))])]
  | backReference field joins =>
      .record [("BackReference",
        .record [("field", .text field), ("joins", .array (joins.map pairToJson))])]

end RootLink

namespace RootBinding

def ofJson? (value : Json) : Option RootBinding := do
  let fields ← value.fields? ["root_entity", "link", "root_object_id"]
  return {
    root := ← fields.required "root_entity" Json.text?
    link := ← fields.required "link" RootLink.ofJson?
    identity := ← fields.required "root_object_id" IdentityField.listOfJson?
  }

def toJson (b : RootBinding) : Json :=
  .record [
    ("root_entity", .text b.root),
    ("link", b.link.toJson),
    ("root_object_id", IdentityField.listToJson b.identity)]

end RootBinding

namespace Collection

def ofJson? (value : Json) : Option Collection := do
  let fields ← value.fields? ["element", "target", "target_keys", "object_id", "root_link"]
  return {
    element := ← fields.required "element" Json.text?
    target := ← fields.required "target" Json.text?
    targetKeys := ← fields.required "target_keys" Json.texts?
    identity := ← fields.required "object_id" IdentityField.listOfJson?
    link := ← fields.optional "root_link" RootLink.ofJson?
  }

def toJson (c : Collection) : Json :=
  .record [
    ("element", .text c.element),
    ("target", .text c.target),
    ("target_keys", .texts c.targetKeys),
    ("object_id", IdentityField.listToJson c.identity),
    ("root_link", .ofOption RootLink.toJson c.link)]

end Collection

namespace Descriptor

/-- The fields of a descriptor in declared order. -/
def fieldNames : List String :=
  ["name", "service_entity", "primary_key_fields", "tracked_attributes", "object_id",
    "compositions_of_many", "root_binding"]

def ofJson? (value : Json) : Option Descriptor := do
  let fields ← value.fields? fieldNames
  return {
    entity := ← fields.required "name" Json.text?
    service := ← fields.optional "service_entity" Json.text?
    primaryKey := ← fields.required "primary_key_fields" Json.texts?
    attributes := ← fields.required "tracked_attributes" (Json.list? Attribute.ofJson?)
    identity := ← fields.required "object_id" IdentityField.listOfJson?
    collections := ← fields.required "compositions_of_many" (Json.list? Collection.ofJson?)
    binding := ← fields.optional "root_binding" RootBinding.ofJson?
  }

def toJson (d : Descriptor) : Json :=
  .record [
    ("name", .text d.entity),
    ("service_entity", .ofOption .text d.service),
    ("primary_key_fields", .texts d.primaryKey),
    ("tracked_attributes", .array (d.attributes.map Attribute.toJson)),
    ("object_id", IdentityField.listToJson d.identity),
    ("compositions_of_many", .array (d.collections.map Collection.toJson)),
    ("root_binding", .ofOption RootBinding.toJson d.binding)]

end Descriptor

/-- The JSON form of a warning, with its wording. -/
def Warning.toJson (w : Warning) : Json :=
  .record [
    ("entity", .text w.entity),
    ("element", .ofOption .text w.element),
    ("path", .ofOption .text w.path),
    ("reason", .text w.reason),
    ("text", .text w.message)]

end ChangeTracking.Tracking
