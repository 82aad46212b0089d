import ChangeTracking.Json.Reader
import ChangeTracking.Json.Record
import ChangeTracking.Schema.Model

/-!
# Model documents

The JSON form of the annotated model.  Reading fills the empty name of an entity from
the key it is registered under; writing gives every field.
-/

namespace ChangeTracking.Schema

namespace Directive

/-- A directive is a truth value or a list of paths. -/
def ofJson? : Json → Option Directive
  | .bool enabled => some (.marker enabled)
  | .array items => (items.mapM Json.text?).map .paths
  | _ => none

def toJson : Directive → Json
  | .marker enabled => .bool enabled
  | .paths list => .texts list

end Directive

namespace AssociationKind

def names : List (String × AssociationKind) :=
  [("reference", .reference), ("composition", .composition)]

def name : AssociationKind → String
  | .reference => "reference"
  | .composition => "composition"

end AssociationKind

namespace OnTerm

/-- Read one term of an association condition. -/
def ofJson? (value : Json) : Option OnTerm := do
  let fields ← value.fields? ["target", "source"]
  return {
    target := ← fields.required "target" Json.text?
    source := ← fields.required "source" Json.text?
  }

def toJson (term : OnTerm) : Json :=
  .record [("target", .text term.target), ("source", .text term.source)]

end OnTerm

namespace Association

def ofJson? (value : Json) : Option Association := do
  let fields ← value.fields? ["kind", "target", "many", "keys", "on"]
  return {
    kind := ← fields.required "kind" (Json.choice? AssociationKind.names)
    target := ← fields.required "target" Json.text?
    many := ← fields.defaulted "many" false Json.bool?
    keys := ← fields.defaulted "keys" [] Json.texts?
    on := ← fields.defaulted "on" [] (Json.list? OnTerm.ofJson?)
  }

def toJson (a : Association) : Json :=
  .record [
    ("kind", .text a.kind.name),
    ("target", .text a.target),
    ("many", .bool a.many),
    ("keys", .texts a.keys),
    ("on", .array (a.on.map OnTerm.toJson))]

end Association

namespace Element

/-- The fields of an element in declared order. -/
def fieldNames : List String :=
  ["name", "type", "key", "virtual", "computed", "localized", "personalData",
    "foreignKeyOf", "length", "association", "changelog"]

def ofJson? (value : Json) : Option Element := do
  let fields ← value.fields? fieldNames
  return {
    name := ← fields.required "name" Json.text?
    type := ← fields.defaulted "type" "cds.String" Json.text?
    isKey := ← fields.defaulted "key" false Json.bool?
    isVirtual := ← fields.defaulted "virtual" false Json.bool?
    isComputed := ← fields.defaulted "computed" false Json.bool?
    isLocalized := ← fields.defaulted "localized" false Json.bool?
    isPersonal := ← fields.defaulted "personalData" false Json.bool?
    foreignKeyOf := ← fields.defaulted "foreignKeyOf" none (Json.nullable? Json.text?)
    length := ← fields.defaulted "length" none (Json.nullable? Json.uint32?)
    association :=
      ← fields.defaulted "association" none (Json.nullable? Association.ofJson?)
    directive := ← fields.defaulted "changelog" none (Json.nullable? Directive.ofJson?)
  }

def toJson (e : Element) : Json :=
  .record [
    ("name", .text e.name),
    ("type", .text e.type),
    ("key", .bool e.isKey),
    ("virtual", .bool e.isVirtual),
    ("computed", .bool e.isComputed),
    ("localized", .bool e.isLocalized),
    ("personalData", .bool e.isPersonal),
    ("foreignKeyOf", .ofOption .text e.foreignKeyOf),
    ("length", .ofOption (fun n => .nat n.toNat) e.length),
    ("association", .ofOption Association.toJson e.association),
    ("changelog", .ofOption Directive.toJson e.directive)]

end Element

namespace Entity

/-- The fields of an entity in declared order. -/
def fieldNames : List String :=
  ["name", "elements", "changelog", "projectionOf", "texts"]

def ofJson? (value : Json) : Option Entity := do
  let fields ← value.fields? fieldNames
  return {
    name := ← fields.defaulted "name" "" Json.text?
    elements := ← fields.defaulted "elements" [] (Json.list? Element.ofJson?)
    directive := ← fields.defaulted "changelog" none (Json.nullable? Directive.ofJson?)
    projectionOf := ← fields.defaulted "projectionOf" none (Json.nullable? Json.text?)
    texts := ← fields.defaulted "texts" none (Json.nullable? Json.text?)
  }

def toJson (e : Entity) : Json :=
  .record [
    ("name", .text e.name),
    ("elements", .array (e.elements.map Element.toJson)),
    ("changelog", .ofOption Directive.toJson e.directive),
    ("projectionOf", .ofOption .text e.projectionOf),
    ("texts", .ofOption .text e.texts)]

/-- The entity, named after its key when it has no name. -/
def namedBy (key : String) (e : Entity) : Entity :=
  if e.name.isEmpty then { e with name := key } else e

end Entity

namespace Model

/-- Read the map of entities from the JSON form of a model. -/
def entitiesOfJson? (value : Json) : Option (NameMap Entity) := do
  let fields ← value.fields? ["entities"]
  let entities ← fields.defaulted "entities" NameMap.empty (Json.map? Entity.ofJson?)
  return entities.map Entity.namedBy

/-- Read and check a model from its JSON form. -/
def ofJson (value : Json) : Except Fault Model :=
  match entitiesOfJson? value with
  | none => .error (.malformedJson "not a model document")
  | some entities => ofMap entities

/-- Read and check a model document. -/
def ofDocument (document : String) : Except Fault Model :=
  match Json.read? document with
  | none => .error (.malformedJson "not a JSON document")
  | some value => ofJson value

def toJson (m : Model) : Json :=
  .record [("entities",
    .record (m.entities.entries.map fun entry => (entry.1, entry.2.toJson)))]

end Model

end ChangeTracking.Schema
