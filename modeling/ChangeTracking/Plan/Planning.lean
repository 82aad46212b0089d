import ChangeTracking.Plan.Origin
import ChangeTracking.Plan.TriggerSet
import ChangeTracking.Skip.Scope
import ChangeTracking.Tracking.Analysis

/-!
# Planning

From the tracking descriptor of an entity to its trigger sets: one for its own
attributes, and one for each tracked composition of many, on the table of the children.
-/

namespace ChangeTracking.Plan

open Schema (ColumnPair Entity Model)
open Skip (Scope)
open Tracking (Attribute Collection Descriptor IdentityField RootLink)

/-- The operations that the settings leave enabled. -/
def enabledOperations (settings : Settings) : List Operation :=
  Operation.all.filter fun op =>
    match op with
    | .create => !settings.ignoreCreates
    | .update => !settings.ignoreUpdates
    | .delete => !settings.ignoreDeletes

/-- The recorded value of an attribute: the raw key of a relationship, the encoded value
of anything else. -/
def attributeValue (a : Attribute) : Expr :=
  if a.isRelationship then encodeKey a.watched .subject
  else encode a.valueClass (.column .subject a.name)

/-- The tracked column of an attribute. -/
def attributeColumn (m : Model) (entity : Entity) (a : Attribute) : TrackedColumn where
  name := a.name
  type := a.type
  watched := a.watched
  value := attributeValue a
  label := label m entity a.labelPaths (.row .subject)
  skipFlag := (Scope.element entity.name a.name).flagName

/-- Where a child's link columns are read: on the child's row, or back from its table. -/
def linkOrigin (child : String) (childKey : List String) : RootLink → Origin
  | .foreignKeys _ => .row .subject
  | .backReference .. => (Origin.row .subject).readBack child childKey

/-- The owner of a child, read from the child's row. -/
def owner (m : Model) (child : String) (childKey : List String) (rootName : String)
    (link : RootLink) (fields : List IdentityField) : Except Fault Owner := do
  let root ← m.entity rootName
  let origin := linkOrigin child childKey link
  let rootOrigin := Origin.keyed root.name
    (link.joins.map fun join => (join.target, origin.read join.source))
  return {
    entity := root.name
    key := joinedKey (link.joins.map fun join => rawText (origin.read join.source))
    identifier := identifier m root fields (link.joins.map (·.target)) rootOrigin }

/-- The flags that suppress everything about an entity. -/
def entityFlags (entity : String) : List String :=
  [Scope.everything.flagName, (Scope.entity entity).flagName]

/-- The triggers for the entity's own attributes; there are none without attributes. -/
def planEntity (m : Model) (d : Descriptor) (settings : Settings) :
    Except Fault (Option TriggerSet) := do
  if d.attributes.isEmpty then
    return none
  let entity ← m.entity d.entity
  let owner ← d.binding.mapM fun binding =>
    owner m d.entity d.primaryKey binding.root binding.link binding.identity
  return some {
    entity := d.entity
    collection := none
    service := d.service
    primaryKey := d.primaryKey
    key := encodeKey d.primaryKey .subject
    identifier := identifier m entity d.identity d.primaryKey (.row .subject)
    owner := owner
    columns := d.attributes.map (attributeColumn m entity)
    operations := enabledOperations settings
    deletePolicy := settings.deletePolicy
    skipFlags := entityFlags d.entity
    changesTable := settings.changesTable
    headerTable := settings.headerTable }

/-- The triggers for one composition of many. -/
def planCollection (m : Model) (d : Descriptor) (settings : Settings) (c : Collection) :
    Except Fault TriggerSet := do
  let target ← m.entity c.target
  let childIdentifier := identifier m target c.identity c.targetKeys (.row .subject)
  let owner ← c.link.mapM fun link =>
    owner m target.name c.targetKeys d.entity link d.identity
  return {
    entity := target.name
    collection := some c.element
    service := d.service
    primaryKey := c.targetKeys
    key := encodeKey c.targetKeys .subject
    identifier := childIdentifier
    owner := owner
    columns := [{
      name := c.element
      type := "cds.Composition"
      watched := []
      value := childIdentifier.getD (encodeKey c.targetKeys .subject)
      label := none
      skipFlag := (Scope.element d.entity c.element).flagName }]
    operations := enabledOperations settings
    deletePolicy := settings.deletePolicy
    skipFlags := entityFlags d.entity ++ [(Scope.entity target.name).flagName]
    changesTable := settings.changesTable
    headerTable := settings.headerTable }

/-- The triggers for the compositions of many, in order. -/
def planCollections (m : Model) (d : Descriptor) (settings : Settings) :
    Except Fault (List TriggerSet) :=
  d.collections.mapM (planCollection m d settings)

/-- All trigger sets of an entity: its own, then those of its compositions. -/
def planAll (m : Model) (d : Descriptor) (settings : Settings) :
    Except Fault (List TriggerSet) := do
  let own ← planEntity m d settings
  let collections ← planCollections m d settings
  return own.toList ++ collections

end ChangeTracking.Plan
