import ChangeTracking.Backend
import ChangeTracking.Sql.Dialect

/-!
# Artifacts

The texts that are generated for a database, each with its name and the way in which it
is installed.
-/

namespace ChangeTracking.Script

/-- How an artifact is installed. -/
inductive ArtifactKind
  /-- A statement that creates a trigger. -/
  | sqlTrigger
  /-- A design-time file of a trigger. -/
  | hdbTrigger
  /-- A design-time file of a procedure. -/
  | hdbProcedure
  /-- A statement that creates a trigger from Java source. -/
  | javaTrigger
  /-- Statements that create a function and a trigger. -/
  | functionTriggerPair
  deriving DecidableEq, Repr

namespace ArtifactKind

/-- The ending of the artifact's file name. -/
def fileSuffix : ArtifactKind → String
  | hdbTrigger => ".hdbtrigger"
  | hdbProcedure => ".hdbprocedure"
  | sqlTrigger | javaTrigger | functionTriggerPair => ".sql"

/-- The artifact is executed over a connection; others are deployed as files. -/
def isExecutable : ArtifactKind → Bool
  | hdbTrigger | hdbProcedure => false
  | sqlTrigger | javaTrigger | functionTriggerPair => true

end ArtifactKind

/-- A generated text. -/
structure Artifact where
  name : String
  /-- The entity whose table the trigger is attached to; support artifacts have none. -/
  entity : Option String
  source : String
  kind : ArtifactKind
  deriving DecidableEq, Repr

/-- The name of the artifact's file. -/
def Artifact.fileName (a : Artifact) : String := a.name ++ a.kind.fileSuffix

/-- What generates artifacts: a backend, and whether it keeps names as they are. -/
structure Generator where
  backend : Backend
  quoted : Bool
  deriving DecidableEq, Repr

/-- The dialect in which the generator writes. -/
def Generator.dialect (g : Generator) : Sql.Dialect := .of g.backend g.quoted

end ChangeTracking.Script
