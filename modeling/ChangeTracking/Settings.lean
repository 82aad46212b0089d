import ChangeTracking.FileTree
import ChangeTracking.Json.Reader
import ChangeTracking.Json.Record
import ChangeTracking.Naming
import ChangeTracking.Text.Chars

/-!
# Settings

What is tracked, how deletes are reflected, how names are spelled, and the two tables
that receive the history.  Settings are read from a JSON document; every field has a
default.
-/

namespace ChangeTracking

/-- How a delete is reflected in the history. -/
inductive DeletePolicy
  /-- The history of the deleted key goes away with it. -/
  | cascade
  /-- The history stays, and the delete is recorded. -/
  | preserve
  deriving DecidableEq, Repr

/-- The tracking settings. -/
structure Settings where
  ignoreCreates : Bool := false
  ignoreUpdates : Bool := false
  ignoreDeletes : Bool := false
  preserveDeletes : Bool := false
  /-- Names stay as they are, instead of being folded to the case of the database. -/
  quotedIdentifiers : Bool := false
  /-- A composition child without a way to its owner is refused. -/
  strictRootBinding : Bool := false
  /-- The table of change records. -/
  changesTable : String := "sap.changelog.Changes"
  /-- The table of headers, one for each tracked key. -/
  headerTable : String := "sap.changelog.ChangeLog"
  deriving DecidableEq, Repr

namespace Settings

def deletePolicy (s : Settings) : DeletePolicy :=
  if s.preserveDeletes then .preserve else .cascade

def tracksNothing (s : Settings) : Bool :=
  s.ignoreCreates && s.ignoreUpdates && s.ignoreDeletes

/-- A table setting must be a dotted name. -/
def checkTable (setting table : String) : Except Fault Unit :=
  match Naming.checkName setting table with
  | .ok () => .ok ()
  | .error fault => .error (.invalidSetting setting table fault.message)

/-- Both tables have acceptable names, and different ones. -/
def check (s : Settings) : Except Fault Unit := do
  checkTable "changesTable" s.changesTable
  checkTable "changeLogTable" s.headerTable
  if s.changesTable = s.headerTable then
    .error (.invalidSetting "changeLogTable" s.headerTable "header and fact table must differ")

/-- The fields of the document in declared order. -/
def fieldNames : List String :=
  ["disableCreateTracking", "disableUpdateTracking", "disableDeleteTracking",
    "preserveDeletes", "quotedIdentifiers", "strictRootBinding", "changesTable",
    "changeLogTable"]

/-- Read settings from a JSON value. -/
def ofJson? (value : Json) : Option Settings := do
  let fields ← value.fields? fieldNames
  let defaults : Settings := {}
  return {
    ignoreCreates := ← fields.defaulted "disableCreateTracking" defaults.ignoreCreates Json.bool?
    ignoreUpdates := ← fields.defaulted "disableUpdateTracking" defaults.ignoreUpdates Json.bool?
    ignoreDeletes := ← fields.defaulted "disableDeleteTracking" defaults.ignoreDeletes Json.bool?
    preserveDeletes := ← fields.defaulted "preserveDeletes" defaults.preserveDeletes Json.bool?
    quotedIdentifiers :=
      ← fields.defaulted "quotedIdentifiers" defaults.quotedIdentifiers Json.bool?
    strictRootBinding :=
      ← fields.defaulted "strictRootBinding" defaults.strictRootBinding Json.bool?
    changesTable := ← fields.defaulted "changesTable" defaults.changesTable Json.text?
    headerTable := ← fields.defaulted "changeLogTable" defaults.headerTable Json.text?
  }

/-- The JSON value of settings, with every field. -/
def toJson (s : Settings) : Json :=
  .record [
    ("disableCreateTracking", .bool s.ignoreCreates),
    ("disableUpdateTracking", .bool s.ignoreUpdates),
    ("disableDeleteTracking", .bool s.ignoreDeletes),
    ("preserveDeletes", .bool s.preserveDeletes),
    ("quotedIdentifiers", .bool s.quotedIdentifiers),
    ("strictRootBinding", .bool s.strictRootBinding),
    ("changesTable", .text s.changesTable),
    ("changeLogTable", .text s.headerTable)]

/-- Read and check a settings document. -/
def ofDocument (document : String) : Except Fault Settings :=
  match (Json.read? document).bind ofJson? with
  | none => .error (.invalidSetting "<document>" "" "not a settings document")
  | some settings => settings.check.map fun () => settings

/-- Read and check the settings document in the file at `path`. -/
def ofFile (path : String) : Reading → Except Fault Settings
  | .missing => .error (.invalidSetting "<file>" path "no such file")
  | .failed reason => .error (.invalidSetting "<file>" path reason)
  | .content bytes =>
      match Text.ofUtf8? bytes with
      | none => .error (.invalidSetting "<file>" path "not a text")
      | some document => ofDocument document

end Settings

end ChangeTracking
