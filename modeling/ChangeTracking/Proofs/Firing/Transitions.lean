import ChangeTracking.Proofs.Firing.RootKeys
import ChangeTracking.Proofs.Firing.Updates

/-!
# Transitions of updates

An update looks at the watched columns of an attribute one by one, but records a value that
is there only when all of them are.  The main statement says which records of an update are
blank, with a value neither before nor after: those of relationships with several key
columns, in rows both of which lack one.
-/

namespace ChangeTracking.Firing

open Plan (TrackedColumn TriggerSet attributeValue planAll)
open Schema (Model)
open Tracking (Attribute analyze)

/-- The row has no value in one of the columns. -/
def Row.Lacks (row : Row) (columns : List String) : Prop :=
  ∃ column ∈ columns, row.get? column = none

instance (row : Row) (columns : List String) : Decidable (row.Lacks columns) :=
  inferInstanceAs (Decidable (∃ column ∈ columns, row.get? column = none))

/-- The record tells of a value neither before nor after. -/
def ChangeRecord.IsBlank (r : ChangeRecord) : Prop :=
  r.before = none ∧ r.after = none

instance (r : ChangeRecord) : Decidable r.IsBlank :=
  inferInstanceAs (Decidable (r.before = none ∧ r.after = none))

theorem joinKey_eq_none_iff (row : Row) (columns : List String) :
    Plan.joinKey (columns.map row.get?) = none ↔ row.Lacks columns := by
  rw [← Option.isSome_eq_false_iff.trans Option.isNone_iff_eq_none, Plan.isSome_joinKey,
    List.all_map, List.all_eq_false]
  simp [Row.Lacks]

/-! ## The value of a column and what it watches -/

/-- What a column records is missing exactly in rows that lack a watched column; a column that
watches none is compared by its value. -/
def IsMadeOfWatched (column : TrackedColumn) : Prop :=
  column.watched ≠ [] → ∀ (store : Store) (row : Row),
    store.valueOver (some row) column.value = none ↔ row.Lacks column.watched

theorem valueOver_attributeValue (store : Store) (row : Row) (a : Attribute) :
    store.valueOver (some row) (attributeValue a) = none ↔ row.Lacks a.watched := by
  unfold attributeValue
  split
  · rw [Store.valueOver_encodeKey, joinKey_eq_none_iff]
  -- A plain attribute watches its own column, and a rule for its text leaves none out.
  · rename_i hplain
    have hwatched : a.watched = [a.name] := by
      have hrelation : a.relation = .none := by simpa [Attribute.isRelationship] using hplain
      rw [Attribute.watched, hrelation]
    rw [hwatched, Store.valueOver, Plan.encode, Scene.value, Option.map_eq_none_iff]
    simp [Row.Lacks, Scene.value, Scene.row, Store.sceneOf]

theorem isMadeOfWatched_of_mem_planAll {m : Model} {d : Tracking.Descriptor}
    {settings : Settings} {sets : List TriggerSet} (h : planAll m d settings = .ok sets)
    {set : TriggerSet} (hset : set ∈ sets) {column : TrackedColumn}
    (hcolumn : column ∈ set.columns) : IsMadeOfWatched column := by
  rcases Plan.mem_planAll h hset with hown | ⟨collection, -, hcollection⟩
  · obtain ⟨entity, -, hcolumns⟩ := Plan.columns_of_planEntity hown
    rw [hcolumns] at hcolumn
    obtain ⟨a, -, rfl⟩ := List.mem_map.mp hcolumn
    exact fun _ store row => valueOver_attributeValue store row a
  · obtain ⟨_, column', -, hcolumns, hwatched, -⟩ := Plan.columns_of_planCollection hcollection
    rw [hcolumns, List.mem_singleton] at hcolumn
    subst hcolumn
    exact fun hne => absurd hwatched hne

/-! ## Blank records -/

/-- A column that tells two rows apart has a value in neither exactly when both lack a part
of it. -/
theorem values_eq_none_iff {store : Store} {old new : Row} {column : TrackedColumn}
    (hmade : IsMadeOfWatched column) (happart : tellsApart store old new column = true) :
    (store.valueOver (some old) column.value = none ∧
        store.valueOver (some new) column.value = none) ↔
      old.Lacks column.watched ∧ new.Lacks column.watched := by
  cases hwatched : column.watched with
  | nil =>
      -- Two values that differ are not both missing.
      rw [tellsApart, hwatched] at happart
      have hdiffer : store.valueOver (some old) column.value ≠
          store.valueOver (some new) column.value := by simpa using happart
      constructor
      · rintro ⟨hold, hnew⟩
        exact absurd (hold.trans hnew.symm) hdiffer
      · rintro ⟨⟨_, hmem, -⟩, -⟩
        cases hmem
  | cons first rest =>
      have hne : column.watched ≠ [] := by simp [hwatched]
      rw [hmade hne store old, hmade hne store new, hwatched]

/-- Of a single column, one of two rows that it tells apart has a value. -/
theorem two_le_length_watched {store : Store} {old new : Row} {column : TrackedColumn}
    (happart : tellsApart store old new column = true) (hold : old.Lacks column.watched)
    (hnew : new.Lacks column.watched) : 2 ≤ column.watched.length := by
  match hwatched : column.watched with
  | [] =>
      rw [hwatched] at hold
      obtain ⟨_, hmem, -⟩ := hold
      cases hmem
  | [only] =>
      rw [hwatched] at hold hnew
      have hold : old.get? only = none := by simpa [Row.Lacks] using hold
      have hnew : new.get? only = none := by simpa [Row.Lacks] using hnew
      simp [tellsApart, hwatched, hold, hnew] at happart
  | _ :: _ :: _ => simp

theorem tellsApart_of_mem_changedColumns {set : TriggerSet} {store : Store}
    {skips : Skip.Session} {old new : Row} {column : TrackedColumn}
    (h : column ∈ changedColumns set store skips old new) :
    column ∈ set.columns ∧ tellsApart store old new column = true := by
  unfold changedColumns at h
  split at h
  · obtain ⟨hmem, hrecorded⟩ := List.mem_filter.mp h
    exact ⟨hmem, (Bool.and_eq_true_iff.mp hrecorded).1⟩
  · cases h

/-- An update of a planned set records a blank transition exactly for the changed columns of
which both rows lack a part.  Such a column watches several columns, so every record of an
attribute that is plain, has one key column, or stands for a collection tells of a value
before or after. -/
theorem isBlank_of_fire_update {m : Model} {d : Tracking.Descriptor} {settings : Settings}
    {sets : List TriggerSet} (hplan : planAll m d settings = .ok sets) {set : TriggerSet}
    (hset : set ∈ sets) (store : Store) (skips : Skip.Session) (old new : Row) :
    List.Forall₂
      (fun column r =>
        IsRecordOf (store.updateScene skips old new) set .update column r ∧
          (r.IsBlank ↔ old.Lacks column.watched ∧ new.Lacks column.watched) ∧
          (r.IsBlank → 2 ≤ column.watched.length))
      (changedColumns set store skips old new)
      (fire set .update (some old) (some new) store skips).records := by
  have honSubject : ∀ column ∈ set.columns, column.OnSubject :=
    fun column hcolumn => Plan.onSubject_of_mem_planAll hplan hset hcolumn
  rw [records_fire_update set store skips old new honSubject, List.forall₂_map_right_iff,
    List.forall₂_same]
  intro column hcolumn
  obtain ⟨hmem, happart⟩ := tellsApart_of_mem_changedColumns hcolumn
  have hmade := isMadeOfWatched_of_mem_planAll hplan hset hmem
  have htold := tellsChange_record set store skips old new (honSubject column hmem)
  have hblank : ((store.updateScene skips old new).record set .update column).IsBlank ↔
      old.Lacks column.watched ∧ new.Lacks column.watched := by
    rw [ChangeRecord.IsBlank, htold.before, htold.after]
    exact values_eq_none_iff hmade happart
  refine ⟨isRecordOf_record set .update _ column, hblank, fun h => ?_⟩
  -- The two rows differ in a watched column, so a single column cannot be missing in both.
  obtain ⟨hold, hnew⟩ := hblank.mp h
  exact two_le_length_watched happart hold hnew

/-! ## Carriers of orders -/

/-- Orders with a carrier, who is known by a country and a code. -/
def carrierModel : Model where
  entities := NameMap.ofList [
    ("shop.Orders", {
      name := "shop.Orders"
      elements := [
        { name := "ID", isKey := true },
        { name := "status", directive := some (.marker true) },
        { name := "carrier", type := "cds.Association"
          association := some {
            kind := .reference, target := "shop.Carriers", keys := ["country", "code"] }
          directive := some (.marker true) }] }),
    ("shop.Carriers", {
      name := "shop.Carriers"
      elements := [{ name := "country", isKey := true }, { name := "code", isKey := true }] })]
  checked := by decide

/-- What is tracked of an order: its status and its carrier. -/
def carriedOrders : Tracking.Descriptor where
  entity := "shop.Orders"
  service := none
  primaryKey := ["ID"]
  attributes := [
    textAttribute "status",
    { name := "carrier", type := "cds.Association", valueClass := .association
      relation := .reference, target := some "shop.Carriers"
      foreignKeys := ["carrier_country", "carrier_code"], onTerms := [], labelPaths := [] }]
  identity := []
  collections := []
  binding := none

theorem analyze_carriedOrders :
    analyze carrierModel "shop.Orders" {} = .ok ⟨carriedOrders, []⟩ := by
  decide +kernel

/-- An order with a carrier. -/
def carriedOrder : Row :=
  ⟨[("ID", "1"), ("carrier_country", "DE"), ("carrier_code", "dhl"), ("status", "open")]⟩

/-- An order of whose carrier the country alone is known. -/
def carrierlessOrder (country : String) : Row := ⟨[("ID", "1"), ("carrier_country", country)]⟩

/-- The transitions that the updates of an order's own set record, without their labels. -/
def transitionsOf (set : TriggerSet) (old new : Row) :
    List (String × Option String × Option String) :=
  (fire set .update (some old) (some new) {} {}).records.map fun r =>
    (r.attributeName, r.before, r.after)

/-- An order that loses its carrier and its status tells of both; one whose carrier moves to
another country, but has no code, tells of nothing. -/
theorem transitionsOf_carriedOrders : ∃ set,
    planAll carrierModel carriedOrders {} = .ok [set] ∧
      transitionsOf set carriedOrder (carrierlessOrder "FR") =
        [("status", some "open", none), ("carrier", some "DE||dhl", none)] ∧
      transitionsOf set (carrierlessOrder "DE") (carrierlessOrder "FR") =
        [("carrier", none, none)] := by
  have hlost : ((planAll carrierModel carriedOrders {}).map fun sets => sets.map fun set =>
      transitionsOf set carriedOrder (carrierlessOrder "FR")) =
        .ok [[("status", some "open", none), ("carrier", some "DE||dhl", none)]] := by
    decide +kernel
  have hmoved : ((planAll carrierModel carriedOrders {}).map fun sets => sets.map fun set =>
      transitionsOf set (carrierlessOrder "DE") (carrierlessOrder "FR")) =
        .ok [[("carrier", none, none)]] := by
    decide +kernel
  obtain ⟨sets, hplan, hsets⟩ := map_eq_ok.mp hlost
  obtain ⟨set, rfl, hset⟩ := List.map_eq_singleton_iff.mp hsets
  rw [hplan] at hmoved
  exact ⟨set, hplan, hset, List.singleton_inj.mp (Except.ok.inj hmoved)⟩

/-- The order that loses its carrier has a complete transition in each of its records. -/
theorem isBlank_of_carriedOrder : ∃ sets set,
    planAll carrierModel carriedOrders {} = .ok sets ∧ set ∈ sets ∧
      transitionsOf set carriedOrder (carrierlessOrder "FR") =
        [("status", some "open", none), ("carrier", some "DE||dhl", none)] ∧
      List.Forall₂
        (fun column r =>
          IsRecordOf (Store.updateScene {} {} carriedOrder (carrierlessOrder "FR"))
              set .update column r ∧
            (r.IsBlank ↔ carriedOrder.Lacks column.watched ∧
              (carrierlessOrder "FR").Lacks column.watched) ∧
            (r.IsBlank → 2 ≤ column.watched.length))
        (changedColumns set {} {} carriedOrder (carrierlessOrder "FR"))
        (fire set .update (some carriedOrder) (some (carrierlessOrder "FR")) {} {}).records := by
  obtain ⟨set, hplan, hlost, -⟩ := transitionsOf_carriedOrders
  have hmem : set ∈ [set] := List.mem_singleton_self set
  exact ⟨[set], set, hplan, hmem, hlost,
    isBlank_of_fire_update hplan hmem {} {} carriedOrder (carrierlessOrder "FR")⟩

/-- The order whose carrier has no code gets a record that tells of nothing. -/
theorem isBlank_of_carrierlessOrder : ∃ a sets set r,
    analyze carrierModel "shop.Orders" {} = .ok a ∧
      planAll carrierModel a.descriptor {} = .ok sets ∧ set ∈ sets ∧
      r ∈ (fire set .update (some (carrierlessOrder "DE")) (some (carrierlessOrder "FR"))
        {} {}).records ∧
      r.before = none ∧ r.after = none := by
  obtain ⟨set, hplan, -, hmoved⟩ := transitionsOf_carriedOrders
  obtain ⟨r, hrecords, htransition⟩ := List.map_eq_singleton_iff.mp hmoved
  obtain ⟨-, hbefore, hafter⟩ : r.attributeName = "carrier" ∧ r.before = none ∧ r.after = none := by
    simpa using htransition
  exact ⟨_, [set], set, r, analyze_carriedOrders, hplan, List.mem_singleton_self set,
    hrecords ▸ List.mem_singleton_self r, hbefore, hafter⟩

end ChangeTracking.Firing
