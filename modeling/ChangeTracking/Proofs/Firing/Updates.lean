import ChangeTracking.Proofs.Firing.Binding
import ChangeTracking.Proofs.Firing.Recording

/-!
# Updates

An update compares two rows column by column.  The main statement says which columns of a
planned set it records, by the rows alone; from it follow that an update without a change
records nothing, and that the reverse update tells the same changes the other way round.
-/

namespace ChangeTracking.Firing

open Plan (Expr Guard RowRole TrackedColumn TriggerSet planAll)
open Schema (Model)
open Tracking (Descriptor)

/-- The column tells the rows apart: by one of its watched columns or, where it watches
none, by its value. -/
def tellsApart (store : Store) (old new : Row) (column : TrackedColumn) : Bool :=
  if column.watched.isEmpty then
    store.valueOver (some old) column.value != store.valueOver (some new) column.value
  else column.watched.any fun name => old.get? name != new.get? name

theorem tellsApart_self (store : Store) (row : Row) (column : TrackedColumn) :
    tellsApart store row row column = false := by
  unfold tellsApart
  split <;> simp

theorem tellsApart_comm (store : Store) (old new : Row) (column : TrackedColumn) :
    tellsApart store old new column = tellsApart store new old column := by
  unfold tellsApart
  split
  · exact bne_comm
  · congr 1
    funext name
    exact bne_comm

/-- The columns that an update from the one row to the other records. -/
def changedColumns (set : TriggerSet) (store : Store) (skips : Skip.Session) (old new : Row) :
    List TrackedColumn :=
  if set.isEnabled .update && !isSuppressed set skips then
    set.columns.filter fun column =>
      tellsApart store old new column && !skips.isFlagSet column.skipFlag
  else []

theorem changedColumns_self (set : TriggerSet) (store : Store) (skips : Skip.Session)
    (row : Row) : changedColumns set store skips row row = [] := by
  unfold changedColumns
  simp [tellsApart_self]

theorem changedColumns_comm (set : TriggerSet) (store : Store) (skips : Skip.Session)
    (old new : Row) :
    changedColumns set store skips old new = changedColumns set store skips new old := by
  unfold changedColumns
  simp only [tellsApart_comm store old new]

/-- What an update from the one row to the other sees. -/
def Store.updateScene (store : Store) (skips : Skip.Session) (old new : Row) : Scene :=
  Scene.of .update (some old) (some new) store skips

/-! ## The guard of a column -/

theorem holds_condition_update (store : Store) (skips : Skip.Session) (old new : Row)
    {column : TrackedColumn} (h : column.OnSubject) :
    (store.updateScene skips old new).holds (column.condition .update) =
      tellsApart store old new column := by
  rw [TrackedColumn.condition, tellsApart]
  split
  · rw [Scene.holds, TrackedColumn.valueOn, TrackedColumn.valueOn,
      Scene.value_bind_of_onRow _ _ h.value, Scene.value_bind_of_onRow _ _ h.value]
    rfl
  · rw [Scene.holds_anyOf, List.any_map]
    rfl

theorem recordedColumns_update (set : TriggerSet) (store : Store) (skips : Skip.Session)
    (old new : Row) (h : ∀ column ∈ set.columns, column.OnSubject) :
    recordedColumns (store.updateScene skips old new) set .update =
      set.columns.filter fun column =>
        tellsApart store old new column && !skips.isFlagSet column.skipFlag := by
  apply List.filter_congr
  intro column hcolumn
  rw [holds_condition_update store skips old new (h column hcolumn)]
  rfl

theorem records_fire_update (set : TriggerSet) (store : Store) (skips : Skip.Session)
    (old new : Row) (h : ∀ column ∈ set.columns, column.OnSubject) :
    (fire set .update (some old) (some new) store skips).records =
      (changedColumns set store skips old new).map
        ((store.updateScene skips old new).record set .update) := by
  have hpurges : set.purges .update = false := rfl
  rw [records_fire, emittedColumns, hpurges, Bool.not_false, Bool.and_true, changedColumns,
    ← recordedColumns_update set store skips old new h]
  rfl

/-! ## What the record of an update tells -/

/-- The label of a column over a row. -/
def labelOver (store : Store) (row : Row) (column : TrackedColumn) : Option String :=
  column.label.bind (store.valueOver (some row))

/-- The record tells the values and labels that the column has over the two rows. -/
structure TellsChange (store : Store) (old new : Row) (column : TrackedColumn)
    (r : ChangeRecord) : Prop where
  before : r.before = store.valueOver (some old) column.value
  after : r.after = store.valueOver (some new) column.value
  labelBefore : r.labelBefore = labelOver store old column
  labelAfter : r.labelAfter = labelOver store new column

theorem value_labelOn (s : Scene) (row : RowRole) (bound : Row) (hrow : s.row row = some bound)
    {column : TrackedColumn} (h : column.OnSubject) :
    s.value (column.labelOn row) = labelOver s.store bound column := by
  unfold TrackedColumn.labelOn labelOver
  cases hlabel : column.label with
  | none => rfl
  | some label =>
      have hvalue := Scene.value_bind_of_onRow s row (h.label label hlabel)
      rw [hrow] at hvalue
      exact hvalue

theorem tellsChange_record (set : TriggerSet) (store : Store) (skips : Skip.Session)
    (old new : Row) {column : TrackedColumn} (h : column.OnSubject) :
    TellsChange store old new column
      ((store.updateScene skips old new).record set .update column) where
  before := Scene.value_bind_of_onRow (store.updateScene skips old new) .old h.value
  after := Scene.value_bind_of_onRow (store.updateScene skips old new) .new h.value
  labelBefore := value_labelOn (store.updateScene skips old new) .old old rfl h
  labelAfter := value_labelOn (store.updateScene skips old new) .new new rfl h

/-- The second record tells the change of the first the other way round. -/
structure IsReverse (r reverse : ChangeRecord) : Prop where
  attributeName : reverse.attributeName = r.attributeName
  before : reverse.before = r.after
  after : reverse.after = r.before
  labelBefore : reverse.labelBefore = r.labelAfter
  labelAfter : reverse.labelAfter = r.labelBefore

theorem TellsChange.isReverse {store : Store} {old new : Row} {column : TrackedColumn}
    {r reverse : ChangeRecord} (h : TellsChange store old new column r)
    (hreverse : TellsChange store new old column reverse)
    (hname : reverse.attributeName = r.attributeName) : IsReverse r reverse where
  attributeName := hname
  before := hreverse.before.trans h.after.symm
  after := hreverse.after.trans h.before.symm
  labelBefore := hreverse.labelBefore.trans h.labelAfter.symm
  labelAfter := hreverse.labelAfter.trans h.labelBefore.symm

/-- An update of a planned set records exactly the columns that tell the two rows apart,
in column order, unless updates are left out or a flag suppresses the set or the column.
So an update that changes nothing records nothing, and the reverse update records the
same attributes in the same order with both values and both labels exchanged. -/
theorem fire_update_records_changedColumns {m : Model} {d : Descriptor} {settings : Settings}
    {sets : List TriggerSet} (hplan : planAll m d settings = .ok sets) {set : TriggerSet}
    (hset : set ∈ sets) (store : Store) (skips : Skip.Session) (old new : Row) :
    List.Forall₂
        (fun column r =>
          IsRecordOf (store.updateScene skips old new) set .update column r ∧
            TellsChange store old new column r)
        (changedColumns set store skips old new)
        (fire set .update (some old) (some new) store skips).records ∧
      (fire set .update (some old) (some old) store skips).records = [] ∧
      List.Forall₂ IsReverse
        (fire set .update (some old) (some new) store skips).records
        (fire set .update (some new) (some old) store skips).records := by
  have hcolumns : ∀ column ∈ set.columns, column.OnSubject :=
    fun column hcolumn => Plan.onSubject_of_mem_planAll hplan hset hcolumn
  have hchanged : ∀ column ∈ changedColumns set store skips old new, column.OnSubject := by
    intro column hcolumn
    unfold changedColumns at hcolumn
    split at hcolumn
    · exact hcolumns column (List.mem_of_mem_filter hcolumn)
    · cases hcolumn
  refine ⟨?_, ?_, ?_⟩
  · rw [records_fire_update set store skips old new hcolumns, List.forall₂_map_right_iff,
      List.forall₂_same]
    intro column hcolumn
    exact ⟨isRecordOf_record set .update _ column,
      tellsChange_record set store skips old new (hchanged column hcolumn)⟩
  · rw [records_fire_update set store skips old old hcolumns, changedColumns_self]
    rfl
  -- Both updates record the same columns, so their records stand in pairs.
  · rw [records_fire_update set store skips old new hcolumns,
      records_fire_update set store skips new old hcolumns,
      ← changedColumns_comm set store skips old new, List.forall₂_map_left_iff,
      List.forall₂_map_right_iff, List.forall₂_same]
    intro column hcolumn
    have htold := tellsChange_record set store skips old new (hchanged column hcolumn)
    have hreverse := tellsChange_record set store skips new old (hchanged column hcolumn)
    exact htold.isReverse hreverse rfl

/-! ## A planned update -/

/-- A shop: orders with their customers, whose names are translated, and their items. -/
def shopModel : Model where
  entities := NameMap.ofList [
    ("shop.Orders", {
      name := "shop.Orders"
      elements := [
        { name := "ID", isKey := true },
        { name := "status", directive := some (.marker true) },
        { name := "customer", type := "cds.Association"
          association := some { kind := .reference, target := "shop.Customers", keys := ["ID"] }
          directive := some (.paths ["customer.name"]) },
        { name := "items", type := "cds.Composition"
          association := some {
            kind := .composition, target := "shop.Items", many := true
            on := [⟨"order_ID", "ID"⟩] }
          directive := some (.marker true) }] }),
    ("shop.Customers", {
      name := "shop.Customers"
      elements := [{ name := "ID", isKey := true }, { name := "name", isLocalized := true }]
      texts := some "shop.Customers_texts" }),
    ("shop.Items", {
      name := "shop.Items"
      elements := [{ name := "ID", isKey := true }, { name := "order_ID" }] })]
  checked := by decide

/-- What is tracked of an order: its status, and its customer under the customer's name. -/
def orderDescriptor : Descriptor where
  entity := "shop.Orders"
  service := none
  primaryKey := ["ID"]
  attributes := [
    { name := "status", type := "cds.String", valueClass := .string, relation := .none
      target := none, foreignKeys := [], onTerms := [], labelPaths := [] },
    { name := "customer", type := "cds.Association", valueClass := .association
      relation := .reference, target := some "shop.Customers", foreignKeys := ["customer_ID"]
      onTerms := [], labelPaths := ["customer.name"] }]
  identity := []
  collections := []
  binding := none

/-- Two customers, one of whose names is translated. -/
def customerStore : Store where
  rows := [
    ("shop.Customers", ⟨[("ID", "c1"), ("name", "Ada")]⟩),
    ("shop.Customers", ⟨[("ID", "c2"), ("name", "The Cook")]⟩),
    ("shop.Customers_texts", ⟨[("ID", "c2"), ("locale", "de"), ("name", "Der Koch")]⟩)]
  locale := some "de"

/-- An order of the first customer. -/
def adasOrder : Row := ⟨[("ID", "o1"), ("status", "New"), ("customer_ID", "c1")]⟩

/-- The same order, now of the second customer. -/
def cooksOrder : Row := ⟨[("ID", "o1"), ("status", "New"), ("customer_ID", "c2")]⟩

/-- Handing an order over to another customer records the customer alone. -/
theorem fire_handOver : ∃ sets set,
    planAll shopModel orderDescriptor {} = .ok sets ∧ set ∈ sets ∧
      (changedColumns set customerStore {} adasOrder cooksOrder).map (·.name) = ["customer"] ∧
      List.Forall₂
        (fun column r =>
          IsRecordOf (customerStore.updateScene {} adasOrder cooksOrder) set .update column r ∧
            TellsChange customerStore adasOrder cooksOrder column r)
        (changedColumns set customerStore {} adasOrder cooksOrder)
        (fire set .update (some adasOrder) (some cooksOrder) customerStore {}).records ∧
      (fire set .update (some adasOrder) (some adasOrder) customerStore {}).records = [] ∧
      List.Forall₂ IsReverse
        (fire set .update (some adasOrder) (some cooksOrder) customerStore {}).records
        (fire set .update (some cooksOrder) (some adasOrder) customerStore {}).records := by
  -- The entity's own set comes before those of its compositions.
  have hhead : ((planAll shopModel orderDescriptor {}).toOption.bind List.head?).map
      (fun set => (changedColumns set customerStore {} adasOrder cooksOrder).map (·.name)) =
        some ["customer"] := by decide
  cases hplan : planAll shopModel orderDescriptor {} with
  | error fault =>
      rw [hplan] at hhead
      cases hhead
  | ok sets =>
      rw [hplan] at hhead
      obtain ⟨set, hset, hchanged⟩ := Option.map_eq_some_iff.mp hhead
      have hmem : set ∈ sets := List.mem_of_head? hset
      exact ⟨sets, set, rfl, hmem, hchanged,
        fire_update_records_changedColumns hplan hmem customerStore {} adasOrder cooksOrder⟩

end ChangeTracking.Firing
