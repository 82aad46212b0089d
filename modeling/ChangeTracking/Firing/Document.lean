import ChangeTracking.Firing.History
import ChangeTracking.Json.Record

/-!
# Documents of rows and records

A row is an object of texts, where `null` says that the column is missing; a record of
the history is an object with all of its fields.
-/

namespace ChangeTracking.Firing

/-- Read the cells of a row. -/
def cellsOfJson? : List (Option String × Json) → Option (List (String × String))
  | [] => some []
  | (some _, .null) :: members => cellsOfJson? members
  | (some name, .string (some value)) :: members =>
      (cellsOfJson? members).map fun cells => (name, value) :: cells
  | _ => none

def Row.ofJson? : Json → Option Row
  | .object members => (cellsOfJson? members).map Row.mk
  | _ => none

def ChangeRecord.toJson (r : ChangeRecord) : Json :=
  .record [
    ("attribute", .text r.attributeName),
    ("from", .ofOption .text r.before),
    ("to", .ofOption .text r.after),
    ("fromLabel", .ofOption .text r.labelBefore),
    ("toLabel", .ofOption .text r.labelAfter),
    ("entity", .text r.entity),
    ("key", .ofOption .text r.entityKey),
    ("rootEntity", .ofOption .text r.rootEntity),
    ("rootKey", .ofOption .text r.rootKey),
    ("objectId", .ofOption .text r.objectId),
    ("rootObjectId", .ofOption .text r.rootObjectId),
    ("type", .text r.type),
    ("modification", .text r.modification)]

/-- The JSON form of the entity and the key whose history goes away. -/
def purgeToJson (purged : String × Option String) : Json :=
  .array [.text purged.1, .ofOption .text purged.2]

def Outcome.toJson (o : Outcome) : Json :=
  .record [
    ("records", .array (o.records.map ChangeRecord.toJson)),
    ("purged", .ofOption purgeToJson o.purged)]

end ChangeTracking.Firing
