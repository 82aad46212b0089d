import ChangeTracking.Firing.History
import ChangeTracking.Proofs.Firing.Guards
import Mathlib.Data.List.Forall2

/-!
# What an invocation records

An invocation does one of three things: nothing, because the operation has no trigger or
a flag suppresses the whole set; a purge; or one record for each column whose guard holds.
Creates and preserved deletes record what is there in the row that they are about.
-/

namespace ChangeTracking.Firing

open Plan (Operation TrackedColumn TriggerSet)

variable (set : TriggerSet) (op : Operation) (old new : Option Row) (store : Store)
  (skips : Skip.Session)

/-! ## The three ways of an invocation -/

/-- A flag of the whole set is set. -/
def isSuppressed (set : TriggerSet) (skips : Skip.Session) : Bool :=
  set.skipFlags.any skips.isFlagSet

theorem isSuppressed_eq_false_iff :
    isSuppressed set skips = false ↔ ∀ flag ∈ set.skipFlags, skips.isFlagSet flag = false := by
  rw [isSuppressed, List.any_eq_false]
  simp

theorem holds_skipGuard (s : Scene) : s.holds set.skipGuard = isSuppressed set s.skips := by
  rw [TriggerSet.skipGuard, Scene.holds_anyOf, List.any_map, isSuppressed]
  rfl

theorem holds_guarded (s : Scene) (column : TrackedColumn) :
    s.holds (column.guarded op) =
      (s.holds (column.condition op) && !s.skips.isFlagSet column.skipFlag) := by
  rw [TrackedColumn.guarded, Scene.holds_allOf]
  simp [Scene.holds]

/-- The columns that the invocation records. -/
def recordedColumns (s : Scene) (set : TriggerSet) (op : Operation) : List TrackedColumn :=
  set.columns.filter fun column =>
    s.holds (column.condition op) && !s.skips.isFlagSet column.skipFlag

theorem fire_eq :
    fire set op old new store skips =
      if !set.isEnabled op || isSuppressed set skips then {}
      else if set.purges op then
        { purged := some (set.entity,
            (Scene.of op old new store skips).value (set.identity .record).entityKey) }
      else
        { records := (recordedColumns (Scene.of op old new store skips) set op).map
            ((Scene.of op old new store skips).record set op) } := by
  have hskips : (Scene.of op old new store skips).skips = skips := rfl
  simp only [fire, holds_skipGuard, holds_guarded, recordedColumns, hskips]

theorem fire_eq_empty (h : set.isEnabled op = false ∨ isSuppressed set skips = true) :
    fire set op old new store skips = {} := by
  rw [fire_eq]
  rcases h with h | h <;> simp [h]

theorem fire_eq_purge (henabled : set.isEnabled op = true)
    (hflags : isSuppressed set skips = false) (hpurges : set.purges op = true) :
    fire set op old new store skips =
      { purged := some (set.entity,
          (Scene.of op old new store skips).value (set.identity .record).entityKey) } := by
  rw [fire_eq]
  simp [henabled, hflags, hpurges]

theorem fire_eq_records (henabled : set.isEnabled op = true)
    (hflags : isSuppressed set skips = false) (hpurges : set.purges op = false) :
    fire set op old new store skips =
      { records := (recordedColumns (Scene.of op old new store skips) set op).map
          ((Scene.of op old new store skips).record set op) } := by
  rw [fire_eq]
  simp [henabled, hflags, hpurges]

/-- An invocation does nothing, purges without recording, or records without purging. -/
theorem fire_cases :
    fire set op old new store skips = {} ∨
    (set.purges op = true ∧ ∃ key, fire set op old new store skips =
      { purged := some (set.entity, key) }) ∨
    (set.purges op = false ∧ fire set op old new store skips =
      { records := (recordedColumns (Scene.of op old new store skips) set op).map
          ((Scene.of op old new store skips).record set op) }) := by
  cases henabled : set.isEnabled op with
  | false => exact Or.inl (fire_eq_empty set op old new store skips (Or.inl henabled))
  | true =>
      cases hflags : isSuppressed set skips with
      | true => exact Or.inl (fire_eq_empty set op old new store skips (Or.inr hflags))
      | false =>
          cases hpurges : set.purges op with
          | true =>
              have hfire := fire_eq_purge set op old new store skips henabled hflags hpurges
              exact Or.inr (Or.inl ⟨rfl, _, hfire⟩)
          | false =>
              have hfire := fire_eq_records set op old new store skips henabled hflags hpurges
              exact Or.inr (Or.inr ⟨rfl, hfire⟩)

/-- The columns of which the invocation emits a record, in the order of the records. -/
def emittedColumns (set : TriggerSet) (op : Operation) (old new : Option Row) (store : Store)
    (skips : Skip.Session) : List TrackedColumn :=
  if set.isEnabled op && !isSuppressed set skips && !set.purges op then
    recordedColumns (Scene.of op old new store skips) set op
  else []

theorem records_fire :
    (fire set op old new store skips).records =
      (emittedColumns set op old new store skips).map
        ((Scene.of op old new store skips).record set op) := by
  rw [fire_eq, emittedColumns]
  cases set.isEnabled op <;> cases isSuppressed set skips <;> cases set.purges op <;> rfl

theorem purged_fire :
    (fire set op old new store skips).purged =
      if set.isEnabled op && !isSuppressed set skips && set.purges op then
        some (set.entity, (Scene.of op old new store skips).value (set.identity .record).entityKey)
      else none := by
  rw [fire_eq]
  cases set.isEnabled op <;> cases isSuppressed set skips <;> cases set.purges op <;> rfl

/-! ## Creates and preserved deletes -/

/-- The record carries the column's name and type, and the identity of the row that the
operation is about. -/
structure IsRecordOf (s : Scene) (set : TriggerSet) (op : Operation) (column : TrackedColumn)
    (r : ChangeRecord) : Prop where
  attributeName : r.attributeName = column.name
  type : r.type = column.type
  modification : r.modification = op.modification
  entity : r.entity = set.entity
  entityKey : r.entityKey = s.value (set.key.bind .record)

theorem isRecordOf_record (s : Scene) (column : TrackedColumn) :
    IsRecordOf s set op column (s.record set op column) :=
  ⟨rfl, rfl, rfl, rfl, rfl⟩

/-- The record tells of a value that appeared. -/
structure TellsAppearance (s : Scene) (column : TrackedColumn) (r : ChangeRecord) : Prop where
  before : r.before = none
  labelBefore : r.labelBefore = none
  after : r.after = s.value (column.value.bind .new)
  after_isSome : r.after.isSome = true
  labelAfter : r.labelAfter = s.value (column.labelOn .new)

/-- The record tells of a value that vanished. -/
structure TellsDisappearance (s : Scene) (column : TrackedColumn) (r : ChangeRecord) : Prop where
  after : r.after = none
  labelAfter : r.labelAfter = none
  before : r.before = s.value (column.value.bind .old)
  before_isSome : r.before.isSome = true
  labelBefore : r.labelBefore = s.value (column.labelOn .old)

/-- What a record of a create or of a preserved delete tells. -/
def TellsPresence (s : Scene) (op : Operation) (column : TrackedColumn) (r : ChangeRecord) :
    Prop :=
  match op with
  | .create => TellsAppearance s column r
  | .delete => TellsDisappearance s column r
  | .update => False

/-- The columns that have a value in the row that the operation is about, and no flag of
their own. -/
def presentColumns (s : Scene) (set : TriggerSet) (op : Operation) : List TrackedColumn :=
  set.columns.filter fun column =>
    (s.value (column.value.bind op.subject)).isSome && !s.skips.isFlagSet column.skipFlag

theorem recordedColumns_eq_presentColumns (s : Scene) (hop : op ≠ .update) :
    recordedColumns s set op = presentColumns s set op := by
  unfold recordedColumns presentColumns
  congr 1
  funext column
  cases op with
  | create =>
      rw [TrackedColumn.condition, Scene.holds_present]
      rfl
  | update => exact absurd rfl hop
  | delete =>
      rw [TrackedColumn.condition, Scene.holds_present]
      rfl

theorem tellsPresence_record (s : Scene) (column : TrackedColumn) (hop : op ≠ .update)
    (hvalue : (s.value (column.value.bind op.subject)).isSome = true) :
    TellsPresence s op column (s.record set op column) := by
  cases op with
  | create => exact ⟨rfl, rfl, rfl, hvalue, rfl⟩
  | update => exact absurd rfl hop
  | delete => exact ⟨rfl, rfl, rfl, hvalue, rfl⟩

/-- A create, or a delete that preserves history, emits one record for each column that
has a value in the row concerned and no flag of its own, in column order; it emits no
other record and purges nothing.  The record of a create tells the value as new, that of
a delete tells it as gone. -/
theorem fire_records_presentColumns
    (hop : op = .create ∨ op = .delete ∧ set.deletePolicy = .preserve)
    (henabled : set.isEnabled op = true)
    (hflags : ∀ flag ∈ set.skipFlags, skips.isFlagSet flag = false) :
    (fire set op old new store skips).purged = none ∧
      List.Forall₂
        (fun column r =>
          IsRecordOf (Scene.of op old new store skips) set op column r ∧
            TellsPresence (Scene.of op old new store skips) op column r)
        (presentColumns (Scene.of op old new store skips) set op)
        (fire set op old new store skips).records := by
  -- Both operations test the value itself, so neither compares rows nor purges.
  have hupdate : op ≠ .update := by
    rcases hop with rfl | ⟨rfl, -⟩ <;> decide
  have hpurges : set.purges op = false := by
    rcases hop with rfl | ⟨rfl, hpolicy⟩
    · rfl
    · rw [TriggerSet.purges, hpolicy]
      rfl
  have hsuppressed := (isSuppressed_eq_false_iff set skips).mpr hflags
  rw [fire_eq_records set op old new store skips henabled hsuppressed hpurges,
    recordedColumns_eq_presentColumns set op _ hupdate]
  refine ⟨rfl, ?_⟩
  rw [List.forall₂_map_right_iff, List.forall₂_same]
  intro column hcolumn
  have hvalue := (Bool.and_eq_true_iff.mp (List.mem_filter.mp hcolumn).2).1
  exact ⟨isRecordOf_record set op _ column,
    tellsPresence_record set op _ column hupdate hvalue⟩

/-- Triggers on order items: the product, a storage place of two parts, the title of the
product as another table has it, and a note. -/
def itemTriggers : TriggerSet where
  entity := "shop.Items"
  collection := none
  service := none
  primaryKey := ["ID"]
  key := Plan.encodeKey ["ID"] .subject
  identifier := none
  owner := none
  columns := [
    { name := "product", type := "cds.String", watched := ["product"]
      value := .encoded .truncated (.column .subject "product"), label := none
      skipFlag := (Skip.Scope.element "shop.Items" "product").flagName },
    { name := "storage", type := "cds.Association", watched := ["hall", "shelf"]
      value := Plan.encodeKey ["hall", "shelf"] .subject, label := none
      skipFlag := (Skip.Scope.element "shop.Items" "storage").flagName },
    { name := "title", type := "cds.String", watched := []
      value := .lookup "shop.Products" "title" [("ID", .column .subject "product")]
      label := some (.column .subject "product")
      skipFlag := (Skip.Scope.element "shop.Items" "title").flagName },
    { name := "note", type := "cds.String", watched := ["note"]
      value := .encoded .truncated (.column .subject "note"), label := none
      skipFlag := (Skip.Scope.element "shop.Items" "note").flagName }]
  operations := [.create, .update, .delete]
  deletePolicy := .preserve
  skipFlags := [Skip.Scope.everything.flagName, (Skip.Scope.entity "shop.Items").flagName]
  changesTable := "changes"
  headerTable := "changelog"

/-- An item that stands in a hall, on no shelf. -/
def penItem : Row := ⟨[("ID", "i1"), ("product", "p1"), ("hall", "7"), ("note", "red")]⟩

/-- The products that items refer to. -/
def productStore : Store := { rows := [("shop.Products", ⟨[("ID", "p1"), ("title", "Pen")]⟩)] }

/-- A writer that logs the notes of items itself. -/
def notesSkipped : Skip.Session := { scopes := [.element "shop.Items" "note"] }

/-- Of a deleted item the product and its title are recorded: a part of the storage place
is missing, and the note is skipped. -/
theorem fire_delete_penItem :
    itemTriggers.isEnabled .delete = true ∧
      (∀ flag ∈ itemTriggers.skipFlags, notesSkipped.isFlagSet flag = false) ∧
      (presentColumns (Scene.of .delete (some penItem) none productStore notesSkipped)
        itemTriggers .delete).map (·.name) = ["product", "title"] ∧
      (fire itemTriggers .delete (some penItem) none productStore notesSkipped).purged = none ∧
      List.Forall₂
        (fun column r =>
          IsRecordOf (Scene.of .delete (some penItem) none productStore notesSkipped)
              itemTriggers .delete column r ∧
            TellsPresence (Scene.of .delete (some penItem) none productStore notesSkipped)
              .delete column r)
        (presentColumns (Scene.of .delete (some penItem) none productStore notesSkipped)
          itemTriggers .delete)
        (fire itemTriggers .delete (some penItem) none productStore notesSkipped).records := by
  have henabled : itemTriggers.isEnabled .delete = true := by decide
  have hflags : ∀ flag ∈ itemTriggers.skipFlags, notesSkipped.isFlagSet flag = false := by decide
  refine ⟨henabled, hflags, by decide, ?_⟩
  exact fire_records_presentColumns itemTriggers .delete (some penItem) none productStore
    notesSkipped (Or.inr ⟨rfl, rfl⟩) henabled hflags

end ChangeTracking.Firing
