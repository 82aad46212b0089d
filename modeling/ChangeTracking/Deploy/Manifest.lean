import ChangeTracking.Backend
import ChangeTracking.Binary.Gzip
import ChangeTracking.FileTree
import ChangeTracking.Json.Reader
import ChangeTracking.Json.Record
import ChangeTracking.Time.Instant
import ChangeTracking.Tracking.Snapshot

/-!
# Manifests

A manifest remembers the fingerprints of the settings and of the descriptors that a
deployment was generated from, so that the next one can tell what has become stale.
It is kept as compressed JSON or in binary form.
-/

namespace ChangeTracking.Deploy

open Tracking (Descriptor)

/-- The fingerprints of one generation run. -/
structure Manifest where
  version : UInt32
  backend : Backend
  generatedAt : Time.Instant
  settingsFingerprint : String
  /-- The fingerprints of the descriptors by entity. -/
  entities : NameMap String
  deriving DecidableEq

namespace Manifest

/-- The version of manifests that are built. -/
def currentVersion : UInt32 := 1

def build (backend : Backend) (descriptors : List Descriptor) (settings : Settings)
    (now : Time.Instant) : Manifest where
  version := currentVersion
  backend := backend
  generatedAt := now
  settingsFingerprint := fingerprint settings.encode
  entities := .ofList (descriptors.map fun d => (d.entity, fingerprint d.encode))

/-! ## Differences -/

/-- What decides about all entities at once has changed. -/
def invalidatesAll (m previous : Manifest) : Bool :=
  m.version != previous.version || m.backend != previous.backend
    || m.settingsFingerprint != previous.settingsFingerprint

/-- The entities that are new or have changed since the previous manifest; all of them
when there is none, or when it was made for other settings. -/
def stale (m : Manifest) (previous : Option Manifest) : List String :=
  match previous with
  | none => m.entities.names
  | some previous =>
      if m.invalidatesAll previous then m.entities.names
      else
        (m.entities.entries.filter fun e => previous.entities.get? e.1 != some e.2).map (·.1)

/-- The entities of the previous manifest that are tracked no longer. -/
def removed (m previous : Manifest) : List String :=
  previous.entities.names.filter fun name => !m.entities.contains name

/-! ## JSON form -/

def backendNames : List (String × Backend) := Backend.all.map fun b => (b.name, b)

/-- The fields of a manifest in declared order. -/
def fieldNames : List String :=
  ["version", "backend", "generated_at", "config_fingerprint", "entities"]

/-- Read a manifest from its JSON form. -/
def ofJson? (value : Json) : Option Manifest := do
  let fields ← value.fields? fieldNames
  return {
    version := ← fields.required "version" Json.uint32?
    backend := ← fields.required "backend" (Json.choice? backendNames)
    generatedAt :=
      ← fields.required "generated_at" fun v => (Json.text? v).bind Time.Instant.read?
    settingsFingerprint := ← fields.required "config_fingerprint" Json.text?
    entities := ← fields.required "entities" (Json.map? Json.text?)
  }

def toJson (m : Manifest) : Json :=
  .record [
    ("version", .nat m.version.toNat),
    ("backend", .text m.backend.name),
    ("generated_at", .text m.generatedAt.text),
    ("config_fingerprint", .text m.settingsFingerprint),
    ("entities", .record (m.entities.entries.map fun e => (e.1, .text e.2)))]

def compress (m : Manifest) : List UInt8 := Binary.Gzip.compress (Text.utf8 m.toJson.write)

def ofCompressed (bytes : List UInt8) : Except Fault Manifest :=
  match Binary.Gzip.expand? bytes with
  | none => .error (.unreadable "not a compressed stream")
  | some data =>
      match ((Text.ofUtf8? data).bind Json.read?).bind ofJson? with
      | none => .error (.malformedJson "not a manifest")
      | some m => .ok m

/-! ## Binary form -/

def encodeEntry (e : String × String) : List UInt8 := Binary.text e.1 ++ Binary.text e.2

def encode (m : Manifest) : List UInt8 :=
  Binary.nat32 m.version.toNat ++ Binary.nat32 m.backend.index
    ++ Binary.text m.generatedAt.text ++ Binary.text m.settingsFingerprint
    ++ Binary.list encodeEntry m.entities.entries

/-- Read a manifest from the front of bytes. -/
def decode? : Binary.Reader Manifest := fun bytes => do
  let (version, bytes) ← Binary.readNat32 bytes
  let (index, bytes) ← Binary.readNat32 bytes
  let backend ← Backend.all[index]?
  let (timestamp, bytes) ← Binary.readText bytes
  let instant ← Time.Instant.read? timestamp
  let (settingsFingerprint, bytes) ← Binary.readText bytes
  let (entries, bytes) ←
    Binary.readList (Binary.readPair Binary.readText Binary.readText) bytes
  return (⟨UInt32.ofNat version, backend, instant, settingsFingerprint, .ofList entries⟩, bytes)

/-- Read a manifest from bytes; more bytes may follow. -/
def ofBinary (bytes : List UInt8) : Except Fault Manifest :=
  match decode? bytes with
  | none => .error (.malformedBinary "not a manifest")
  | some (m, _) => .ok m

/-- Read a manifest from a file; there is none where the file is missing. -/
def load : Reading → Except Fault (Option Manifest)
  | .missing => .ok none
  | .failed reason => .error (.unreadable reason)
  | .content bytes => (ofCompressed bytes).map some

end Manifest

end ChangeTracking.Deploy
