import ChangeTracking.Plan.Planning
import ChangeTracking.Script.H2
import ChangeTracking.Script.Hana
import ChangeTracking.Script.Postgres
import ChangeTracking.Script.Sqlite

/-!
# Generation

The artifacts of trigger sets, of entities and of whole models.  A model's run goes on
after the fault of one entity and ends at a fault of the run itself.
-/

namespace ChangeTracking.Script

open Plan (Operation TriggerSet)
open Schema (Model)
open Tracking (Descriptor)

namespace Generator

def trigger (g : Generator) (set : TriggerSet) (op : Operation) : Artifact :=
  match g.backend with
  | .sqlite => Sqlite.trigger g.dialect set op
  | .hana => Hana.trigger g.dialect set op
  | .h2 => H2.trigger g.dialect set op
  | .postgres => Postgres.trigger g.dialect set op

/-- The name of the trigger of one operation. -/
def triggerName (g : Generator) (set : TriggerSet) (op : Operation) : String :=
  operationName g.dialect set op
    ++ match g.backend with
      | .postgres => "_trigger"
      | _ => ""

def artifacts (g : Generator) (set : TriggerSet) : List Artifact :=
  match g.backend with
  | .postgres => Postgres.combined g.dialect set
  | _ => set.operations.map (g.trigger set)

/-- All artifacts of a set that stands for a composition of many. -/
def collectionArtifacts (g : Generator) (set : TriggerSet) : Except Fault (List Artifact) :=
  if set.collection.isNone then
    .error (.defect "collectionArtifacts"
      ("plan for '" ++ set.entity ++ "' is not a composition trigger set"))
  else .ok (g.artifacts set)

/-- The artifacts that all sets share. -/
def support (g : Generator) (settings : Settings) : List Artifact :=
  match g.backend with
  | .hana => Hana.support g.dialect settings
  | _ => []

/-- All artifacts of an entity: of its own set, then of its compositions of many. -/
def entityArtifacts (g : Generator) (m : Model) (d : Descriptor) (settings : Settings) :
    Except Fault (List Artifact) := do
  let own ← Plan.planEntity m d settings
  let collections ← Plan.planCollections m d settings
  let rest ← collections.mapM g.collectionArtifacts
  return own.toList.flatMap g.artifacts ++ rest.flatten

end Generator

/-- The outcome of a run over a model. -/
structure Generation where
  artifacts : List Artifact
  failures : List (String × Fault)
  deriving DecidableEq, Repr

namespace Generator

/-- Add the artifacts or the fault of one more entity. -/
def addEntity (g : Generator) (m : Model) (settings : Settings) (soFar : Generation)
    (d : Descriptor) : Except Fault Generation :=
  match g.entityArtifacts m d settings with
  | .ok artifacts => .ok { soFar with artifacts := soFar.artifacts ++ artifacts }
  | .error fault =>
      if fault.stopsRun then .error fault
      else .ok { soFar with failures := soFar.failures ++ [(d.entity, fault)] }

/-- The artifacts of all descriptors after the shared ones; faults come after the given
ones. -/
def generate (g : Generator) (m : Model) (descriptors : List Descriptor)
    (failures : List (String × Fault)) (settings : Settings) : Except Fault Generation :=
  descriptors.foldlM (g.addEntity m settings) ⟨g.support settings, failures⟩

end Generator

end ChangeTracking.Script
