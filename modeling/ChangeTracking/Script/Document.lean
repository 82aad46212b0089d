import ChangeTracking.Json.Record
import ChangeTracking.Script.Artifact

/-!
# Artifact documents

The JSON form in which artifacts are handed to a deployment.
-/

namespace ChangeTracking.Script

namespace ArtifactKind

def names : List (String × ArtifactKind) :=
  [("SqlTrigger", sqlTrigger), ("HdbTrigger", hdbTrigger), ("HdbProcedure", hdbProcedure),
    ("JavaTrigger", javaTrigger), ("FunctionTriggerPair", functionTriggerPair)]

def name : ArtifactKind → String
  | sqlTrigger => "SqlTrigger"
  | hdbTrigger => "HdbTrigger"
  | hdbProcedure => "HdbProcedure"
  | javaTrigger => "JavaTrigger"
  | functionTriggerPair => "FunctionTriggerPair"

end ArtifactKind

namespace Artifact

def fieldNames : List String := ["trigger_name", "entity", "source_text", "artifact_kind"]

def ofJson? (value : Json) : Option Artifact := do
  let fields ← value.fields? fieldNames
  return {
    name := ← fields.required "trigger_name" Json.text?
    entity := ← fields.optional "entity" Json.text?
    source := ← fields.required "source_text" Json.text?
    kind := ← fields.required "artifact_kind" (Json.choice? ArtifactKind.names)
  }

/-- The JSON form of an artifact, with what follows from its kind. -/
def toJson (a : Artifact) : Json :=
  .record [
    ("triggerName", .text a.name),
    ("entity", .ofOption .text a.entity),
    ("kind", .text a.kind.name),
    ("file", .text a.fileName),
    ("executable", .bool a.kind.isExecutable),
    ("source", .text a.source)]

end Artifact

end ChangeTracking.Script
