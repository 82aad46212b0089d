import ChangeTracking.Script.Sqlite

/-!
# SQLite triggers in pieces

The statements of a trigger are texts of fragments.  So the characters of its body are known
from the pieces of the fragments, without the whole text.
-/

namespace ChangeTracking

namespace Text

/-- The characters of indented text. -/
def indented (depth : Nat) (cs : List Char) : List Char :=
  ['\n'].intercalate ((linesFrom [] cs).map fun line =>
    if line = [] then [] else List.replicate (4 * depth) ' ' ++ line)

theorem toList_indent (depth : Nat) (s : String) :
    (indent depth s).toList = indented depth s.toList := by
  rw [indent, String.toList_intercalate, lines, List.map_map, List.map_map, indented]
  congr 1
  refine List.map_congr_left fun line _ => ?_
  by_cases h : line = []
  · simp [h]
  · have hne : String.ofList line ≠ "" := by
      intro heq
      exact h (by simpa using congrArg String.toList heq)
    simp [h, hne]

end Text

namespace Sql.Fragment

/-- The characters of the text that is sent. -/
def chars (f : Fragment) : List Char :=
  f.pieces.flatMap fun piece =>
    match piece with
    | .plain text => text.toList
    | .parameter _ => "?".toList

theorem toList_sent (f : Fragment) : f.sent.toList = f.chars := by
  rw [sent, String.toList_join, List.flatMap_map, chars]
  congr 1
  funext piece
  cases piece <;> rfl

end Sql.Fragment

namespace Script.Sqlite

open Plan (Operation TrackedColumn TriggerSet)
open Sql (Dialect Fragment)

variable (d : Dialect) (set : TriggerSet) (op : Operation)

/-- Column names separated by commas. -/
def columnListPieces (columns : List String) : Fragment :=
  .join ", " (columns.map fun column => .ofText (d.columnName column))

theorem sent_columnListPieces (columns : List String) :
    (columnListPieces d columns).sent = columnList d columns := by
  rw [columnListPieces, Fragment.sent_join, List.map_map, columnList]
  simp only [Function.comp_def, Fragment.sent_ofText]

/-- The statement that opens the header. -/
def openHeaderPieces : Fragment :=
  let key := (set.identity op.subject).entityKey
  let values := headerValues d set (.ofText d.freshId) key
  let table := d.tableName set.headerTable
  .ofText "INSERT INTO " ++ .ofText table ++ .ofText " (" ++ columnListPieces d headerColumns
    ++ .ofText ")\nSELECT " ++ .join ", " values
    ++ .ofText "\nWHERE NOT EXISTS (SELECT 1 FROM " ++ .ofText table ++ .ofText " WHERE "
    ++ whereClause d (historyFilters set key) ++ .ofText ")\n  AND "
    ++ d.renderGuard ((set.anyChange op).bind op.subject) ++ .ofText ";"

theorem sent_openHeaderPieces : (openHeaderPieces d set op).sent = openHeader d set op := by
  simp only [openHeaderPieces, Fragment.sent_append, Fragment.sent_ofText,
    sent_columnListPieces]
  rfl

/-- The statement that records one column. -/
def recordColumnPieces (column : TrackedColumn) : Fragment :=
  let identity := set.identity op.subject
  let values := changeValues d set column op identity (headerId set identity.entityKey)
  .ofText "INSERT INTO " ++ .ofText (d.tableName set.changesTable) ++ .ofText " ("
    ++ columnListPieces d changeColumns ++ .ofText ")\nSELECT " ++ .join ", " values
    ++ .ofText "\nWHERE " ++ d.renderGuard ((column.guarded op).bind op.subject) ++ .ofText ";"

theorem sent_recordColumnPieces (column : TrackedColumn) :
    (recordColumnPieces d set op column).sent = recordColumn d set op column := by
  simp only [recordColumnPieces, Fragment.sent_append, Fragment.sent_ofText,
    sent_columnListPieces]
  rfl

/-- The statements of the body. -/
def bodyPieces : List Fragment :=
  if set.purges op then
    (purgeStatements d set (set.identity op.subject).entityKey).map (· ++ .ofText ";")
  else openHeaderPieces d set op :: set.columns.map (recordColumnPieces d set op)

theorem map_sent_bodyPieces : (bodyPieces d set op).map (·.sent) = body d set op := by
  unfold bodyPieces body
  split
  · simp only [List.map_map, Function.comp_def, Fragment.sent_append, Fragment.sent_ofText]
  · simp only [List.map_cons, List.map_map, Function.comp_def, sent_openHeaderPieces,
      sent_recordColumnPieces]

/-- What stands in front of the body. -/
def headPieces : Fragment :=
  .ofText "CREATE TRIGGER " ++ .ofText (operationName d set op) ++ .ofText " AFTER "
    ++ .ofText op.event ++ .ofText "\nON " ++ .ofText (d.tableName set.entity)
    ++ .ofText "\nFOR EACH ROW WHEN " ++ d.renderGuard (.negate set.skipGuard)
    ++ .ofText "\nBEGIN\n"

/-- The characters of a trigger. -/
def triggerChars : List Char :=
  (headPieces d set op).chars
    ++ ['\n'].intercalate ((bodyPieces d set op).map fun f => Text.indented 1 f.chars)
    ++ "\nEND;".toList

theorem toList_source_trigger : (trigger d set op).source.toList = triggerChars d set op := by
  have hsource : (trigger d set op).source =
      (headPieces d set op).sent ++ "\n".intercalate ((body d set op).map (Text.indent 1))
        ++ "\nEND;" := by
    simp only [headPieces, Fragment.sent_append, Fragment.sent_ofText]
    rfl
  rw [hsource, String.toList_append, String.toList_append, String.toList_intercalate,
    Fragment.toList_sent, ← map_sent_bodyPieces, List.map_map, List.map_map, triggerChars]
  simp only [Function.comp_def, Text.toList_indent, Fragment.toList_sent]
  rfl

end Script.Sqlite

end ChangeTracking
