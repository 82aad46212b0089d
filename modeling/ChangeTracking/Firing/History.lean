import ChangeTracking.Firing.Evaluation
import ChangeTracking.Plan.TriggerSet

/-!
# Firing and history

What one invocation of a trigger does, and the history that a run of invocations leaves
behind: records are appended, and a cascading delete removes the records of its key.
-/

namespace ChangeTracking.Firing

open Plan (Operation TrackedColumn TriggerSet)

/-- One record of the history. -/
structure ChangeRecord where
  attributeName : String
  before : Option String
  after : Option String
  labelBefore : Option String
  labelAfter : Option String
  entity : String
  entityKey : Option String
  rootEntity : Option String
  rootKey : Option String
  objectId : Option String
  rootObjectId : Option String
  type : String
  modification : String
  deriving DecidableEq, Repr

/-- What one invocation does. -/
structure Outcome where
  records : List ChangeRecord := []
  /-- The entity and the key whose history goes away. -/
  purged : Option (String × Option String) := none
  deriving DecidableEq, Repr

/-- What the trigger of an operation sees. -/
def Scene.of (op : Operation) (old new : Option Row) (store : Store) (skips : Skip.Session) :
    Scene where
  old := old
  new := new
  subject := match op with
    | .delete => old
    | _ => new
  store := store
  skips := skips

def Scene.record (s : Scene) (set : TriggerSet) (op : Operation) (column : TrackedColumn) :
    ChangeRecord :=
  let identity := set.identity .record
  let transition := column.transition op
  { attributeName := column.name
    before := s.value transition.before
    after := s.value transition.after
    labelBefore := s.value transition.labelBefore
    labelAfter := s.value transition.labelAfter
    entity := set.entity
    entityKey := s.value identity.entityKey
    rootEntity := identity.rootEntity
    rootKey := s.value identity.rootKey
    objectId := s.value identity.objectId
    rootObjectId := s.value identity.rootObjectId
    type := column.type
    modification := op.modification }

/-- Run the trigger of `set` for `op`; the store already shows the write. -/
def fire (set : TriggerSet) (op : Operation) (old new : Option Row) (store : Store)
    (skips : Skip.Session) : Outcome :=
  let scene := Scene.of op old new store skips
  if !set.isEnabled op || scene.holds set.skipGuard then {}
  else if set.purges op then
    { purged := some (set.entity, scene.value (set.identity .record).entityKey) }
  else
    { records :=
        (set.columns.filter fun column => scene.holds (column.guarded op)).map
          (scene.record set op) }

/-- The record belongs to the entity and the key. -/
def ChangeRecord.isOf (r : ChangeRecord) (entity : String) (key : Option String) : Bool :=
  r.entity == entity && r.entityKey == key

/-- Add an outcome to a history. -/
def applyOutcome (history : List ChangeRecord) (outcome : Outcome) : List ChangeRecord :=
  let kept := match outcome.purged with
    | none => history
    | some (entity, key) => history.filter fun r => !r.isOf entity key
  kept ++ outcome.records

/-- The records of one entity and key. -/
def recordsFor (history : List ChangeRecord) (entity key : String) : List ChangeRecord :=
  history.filter fun r => r.isOf entity (some key)

end ChangeTracking.Firing
