/-!
# Faults

Every reason for which a schema, a setting, a document or a deployment is refused.
A fault knows its wording, its five-character state code, and whether it stops a
whole run or only the entity at hand.
-/

namespace ChangeTracking

/-- The cause of a refusal. -/
inductive Fault
  /-- The schema has no entity of this name. -/
  | unknownEntity (entity : String)
  /-- The schema contradicts itself at `location`. -/
  | invalidSchema (location reason : String)
  /-- Two sources annotate one element with different path lists. -/
  | conflictingDirectives (entity element firstSource first secondSource second : String)
  /-- A composition child has no way to reach its owner, and the settings insist on one. -/
  | unboundRoot (entity root : String)
  /-- A name or a directive path is not acceptable. -/
  | invalidInput (parameter value reason : String)
  /-- No generator is known under this name. -/
  | unsupportedBackend (backend registered : String)
  /-- The database refused a statement. -/
  | deploymentFailed (artifact reason : String)
  /-- A setting has an unacceptable value, or the settings cannot be read. -/
  | invalidSetting (setting value reason : String)
  /-- Stored data cannot be read or written. -/
  | serialization (message : String)
  /-- The generator broke one of its own rules. -/
  | defect (location message : String)
  deriving DecidableEq, Repr

namespace Fault

/-- The wording shown to users. -/
def message : Fault → String
  | unknownEntity entity => "Entity '" ++ entity ++ "' not found in schema model"
  | invalidSchema location reason => "Invalid schema model at '" ++ location ++ "': " ++ reason
  | conflictingDirectives entity element firstSource first secondSource second =>
      "Conflicting @changelog annotations for '" ++ entity ++ "." ++ element ++ "': "
        ++ firstSource ++ " declares [" ++ first ++ "], "
        ++ secondSource ++ " declares [" ++ second ++ "]"
  | unboundRoot entity root =>
      "No root binding for composition child '" ++ entity ++ "' (root '" ++ root ++ "')"
  | invalidInput parameter value reason =>
      "Invalid " ++ parameter ++ " '" ++ value ++ "': " ++ reason
  | unsupportedBackend backend registered =>
      "Unsupported backend '" ++ backend ++ "' (registered: " ++ registered ++ ")"
  | deploymentFailed artifact reason => "Deployment of '" ++ artifact ++ "' failed: " ++ reason
  | invalidSetting setting value reason =>
      "Configuration error for '" ++ setting ++ "': " ++ reason ++ " (value: " ++ value ++ ")"
  | serialization message => "Serialization error: " ++ message
  | defect location message =>
      "Internal error at " ++ location ++ ": " ++ message ++ "\nPlease report this bug."

/-- Stored JSON text does not hold what it should. -/
def malformedJson (detail : String) : Fault :=
  .serialization ("JSON serialization error: " ++ detail)

/-- Stored bytes do not hold what they should. -/
def malformedBinary (detail : String) : Fault :=
  .serialization ("Binary serialization error: " ++ detail)

/-- A file or a compressed stream cannot be read. -/
def unreadable (detail : String) : Fault :=
  .serialization ("I/O error: " ++ detail)

/-- The five-character state code raised with the fault. -/
def sqlstate : Fault → String
  | unknownEntity _ => "42P01"
  | invalidSchema .. => "42P17"
  | conflictingDirectives .. => "42P09"
  | unboundRoot .. => "42830"
  | invalidInput .. => "22023"
  | unsupportedBackend .. => "0A000"
  | deploymentFailed .. => "55000"
  | invalidSetting .. => "F0000"
  | serialization _ => "XX000"
  | defect .. => "XX000"

/-- Faults of the run itself; all others leave the remaining entities alone. -/
def stopsRun : Fault → Bool
  | unsupportedBackend .. | invalidSetting .. | defect .. => true
  | _ => false

end Fault

end ChangeTracking
