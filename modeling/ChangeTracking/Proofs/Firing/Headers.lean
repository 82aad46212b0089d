import ChangeTracking.Proofs.Firing.Binding
import ChangeTracking.Proofs.Firing.Recording

/-!
# Headers

Where a trigger has no locals, it asks beforehand whether anything will be recorded, and opens a
header only then; the records follow, each under a guard of its own.  Everything is bound to the
row of the operation there, while other triggers bind it to the record at hand or leave the guards
as they are.  The main statement is that these ways agree: the header is opened exactly when there
is a record, and all of them find the same identity.
-/

namespace ChangeTracking.Firing

open Plan (Expr Guard Operation RowRole TrackedColumn TriggerSet)

/-! ## Roles of the subject -/

namespace Scene

variable {s : Scene} {row : RowRole}

theorem readsAlike_of_row_eq_subject (hrow : s.row row = s.subject) (e : Expr) :
    e.Everywhere (ReadsAlike s s row) := by
  intro t _
  cases t with
  | column role name =>
      cases role with
      | subject => exact hrow
      | _ => rfl
  | _ => trivial

/-- Bound to a role in which the subject stands, an expression keeps its value. -/
theorem value_bind_of_row_eq_subject (hrow : s.row row = s.subject) (e : Expr) :
    s.value (e.bind row) = s.value e :=
  value_bind e rfl (readsAlike_of_row_eq_subject hrow e)

section Groups

variable {guards : List Guard} (h : ∀ guard ∈ guards, s.holds (guard.bind row) = s.holds guard)
include h

theorem anyHolds_bindAll : s.anyHolds (Guard.bindAll row guards) = s.anyHolds guards := by
  induction guards with
  | nil => rfl
  | cons guard guards ih =>
      obtain ⟨hfirst, hguards⟩ := List.forall_mem_cons.mp h
      rw [Guard.bindAll, anyHolds, anyHolds, hfirst, ih hguards]

theorem allHold_bindAll : s.allHold (Guard.bindAll row guards) = s.allHold guards := by
  induction guards with
  | nil => rfl
  | cons guard guards ih =>
      obtain ⟨hfirst, hguards⟩ := List.forall_mem_cons.mp h
      rw [Guard.bindAll, allHold, allHold, hfirst, ih hguards]

end Groups

/-- Bound to a role in which the subject stands, a guard holds as it did. -/
theorem holds_bind_of_row_eq_subject (hrow : s.row row = s.subject) (g : Guard) :
    s.holds (g.bind row) = s.holds g := by
  induction g using Guard.inductOn with
  | notNull value => rw [Guard.bind, holds, holds, value_bind_of_row_eq_subject hrow]
  | changed old new =>
      rw [Guard.bind, holds, holds, value_bind_of_row_eq_subject hrow,
        value_bind_of_row_eq_subject hrow]
  | any guards ih => rw [Guard.bind, holds, holds, anyHolds_bindAll ih]
  | all guards ih => rw [Guard.bind, holds, holds, allHold_bindAll ih]
  | negate inner ih => rw [Guard.bind, holds, holds, ih]
  | flag name => rfl

theorem value_bound_of_row_eq_subject (hrow : s.row row = s.subject) (e : Option Expr) :
    s.value (TriggerSet.bound row e) = e.bind s.value := by
  cases e with
  | none => rfl
  | some e => exact value_bind_of_row_eq_subject hrow e

/-- The computed values of an identity, in the order of its locals. -/
def identityOn (s : Scene) (set : TriggerSet) (row : RowRole) : List (String × Option String) :=
  (set.identity row).values.map fun v => (v.1, s.value v.2)

/-- The identity is the same in every role in which the subject stands. -/
theorem identityOn_eq {row' : RowRole} (hrow : s.row row = s.subject) (hrow' : s.row row' = s.subject)
    (set : TriggerSet) : s.identityOn set row = s.identityOn set row' := by
  simp only [identityOn, Plan.Identity.values, TriggerSet.identity, List.map_cons, List.map_nil,
    value_bind_of_row_eq_subject hrow, value_bind_of_row_eq_subject hrow',
    value_bound_of_row_eq_subject hrow, value_bound_of_row_eq_subject hrow']

end Scene

/-- The row of an operation is what the operation is about. -/
theorem row_subject_of (op : Operation) (old new : Option Row) (store : Store)
    (skips : Skip.Session) :
    (Scene.of op old new store skips).row op.subject = (Scene.of op old new store skips).subject := by
  cases op <;> rfl

/-! ## Headers and records -/

/-- A column of the set is recorded exactly when the guard of the whole set holds. -/
theorem holds_anyChange_iff (s : Scene) (set : TriggerSet) (op : Operation) :
    s.holds (set.anyChange op) = true ↔ recordedColumns s set op ≠ [] := by
  rw [TriggerSet.anyChange, Scene.holds_anyOf, List.any_map, recordedColumns, ne_eq,
    List.filter_eq_nil_iff]
  simp [holds_guarded]

/-- The identity that a record carries, with the names of its locals. -/
def ChangeRecord.identity (r : ChangeRecord) : List (String × Option String) :=
  [("entity_key", r.entityKey), ("object_id", r.objectId), ("root_key", r.rootKey),
    ("root_object_id", r.rootObjectId)]

theorem identity_record (s : Scene) (set : TriggerSet) (op : Operation) (column : TrackedColumn) :
    (s.record set op column).identity = s.identityOn set .record := rfl

variable (set : TriggerSet) (op : Operation) (old new : Option Row) (store : Store)
  (skips : Skip.Session)

/-- Let an operation have a trigger that records, and let no flag suppress the set.  Bound to the
row of the operation, the guard of the header holds exactly if a record is emitted; the guards of
the single columns are those under which their records are emitted; and the identity, bound to that
row, is the one bound to the record at hand, and the one that every record carries. -/
theorem opensHeader_iff_records (henabled : set.isEnabled op = true)
    (hpurges : set.purges op = false)
    (hskips : (Scene.of op old new store skips).holds set.skipGuard = false) :
    ((Scene.of op old new store skips).holds ((set.anyChange op).bind op.subject) = true ↔
        (fire set op old new store skips).records ≠ []) ∧
      (∀ column : TrackedColumn,
        (Scene.of op old new store skips).holds ((column.guarded op).bind op.subject) =
          (Scene.of op old new store skips).holds (column.guarded op)) ∧
      (Scene.of op old new store skips).identityOn set op.subject =
        (Scene.of op old new store skips).identityOn set .record ∧
      ∀ r ∈ (fire set op old new store skips).records,
        r.identity = (Scene.of op old new store skips).identityOn set op.subject ∧
          r.rootEntity = (set.identity op.subject).rootEntity := by
  -- The row of the operation is the subject of its scene, so binding to it changes nothing.
  have hsubject := row_subject_of op old new store skips
  have hidentity : (Scene.of op old new store skips).identityOn set op.subject =
      (Scene.of op old new store skips).identityOn set .record :=
    Scene.identityOn_eq hsubject rfl set
  rw [holds_skipGuard] at hskips
  rw [fire_eq_records set op old new store skips henabled hskips hpurges]
  refine ⟨?_, fun column => Scene.holds_bind_of_row_eq_subject hsubject _, hidentity, ?_⟩
  · rw [Scene.holds_bind_of_row_eq_subject hsubject, holds_anyChange_iff, ne_eq, ne_eq,
      List.map_eq_nil_iff]
  · intro r hr
    obtain ⟨column, -, rfl⟩ := List.mem_map.mp hr
    rw [identity_record, hidentity]
    exact ⟨rfl, rfl⟩

/-- The triggers on order items, which are known by their note and belong to an order. -/
def orderedItems : TriggerSet :=
  { itemTriggers with
    identifier := some (.encoded .truncated (.listJoin [.column .subject "note"]))
    owner := some {
      entity := "shop.Orders"
      key := .column .subject "order_ID"
      identifier := some (.lookup "shop.Orders" "title" [("ID", .column .subject "order_ID")]) } }

/-- An item of the second order, without a note. -/
def inkItem : Row := ⟨[("ID", "i2"), ("product", "p2"), ("order_ID", "o2")]⟩

def orderStore : Store := { rows := [("shop.Orders", ⟨[("ID", "o2"), ("title", "May")]⟩)] }

/-- The delete of an item is recorded under a header.  The update that leaves it as it is opens
none. -/
theorem opensHeader_for_inkItem :
    (orderedItems.isEnabled .delete = true ∧ orderedItems.purges .delete = false ∧
      (Scene.of .delete (some inkItem) none orderStore {}).holds orderedItems.skipGuard = false) ∧
    (Scene.of .delete (some inkItem) none orderStore {}).identityOn orderedItems .old =
      [("entity_key", some "i2"), ("object_id", none), ("root_key", some "o2"),
        ("root_object_id", some "May")] ∧
    (fire orderedItems .delete (some inkItem) none orderStore {}).records ≠ [] ∧
    (Scene.of .delete (some inkItem) none orderStore {}).holds
      ((orderedItems.anyChange .delete).bind .old) = true ∧
    (Scene.of .update (some inkItem) (some inkItem) orderStore {}).holds
      ((orderedItems.anyChange .update).bind .new) = false ∧
    (fire orderedItems .update (some inkItem) (some inkItem) orderStore {}).records = [] := by
  have hrecorded : (fire orderedItems .delete (some inkItem) none orderStore {}).records ≠ [] := by
    decide
  have hdelete := (opensHeader_iff_records orderedItems .delete (some inkItem) none orderStore {}
    (by decide) (by decide) (by decide)).1
  have hupdate := (opensHeader_iff_records orderedItems .update (some inkItem) (some inkItem)
    orderStore {} (by decide) (by decide) (by decide)).1
  have hunchanged : (Scene.of .update (some inkItem) (some inkItem) orderStore {}).holds
      ((orderedItems.anyChange .update).bind .new) = false := by decide
  have hnothing : (fire orderedItems .update (some inkItem) (some inkItem) orderStore {}).records =
      [] := by
    by_contra hrecords
    cases (hupdate.mpr hrecords).symm.trans hunchanged
  exact ⟨⟨by decide, by decide, by decide⟩, by decide, hrecorded, hdelete.mpr hrecorded, hunchanged,
    hnothing⟩

end ChangeTracking.Firing
