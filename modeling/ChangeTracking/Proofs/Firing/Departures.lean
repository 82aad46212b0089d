import ChangeTracking.Proofs.Firing.RootIdentifiers
import ChangeTracking.Proofs.Firing.Suppression
import ChangeTracking.Proofs.Tracking.RootLinks

/-!
# Owners of rows that come and go

A child names its owner in the records of its creation and in those of its deletion.  Foreign
keys are read from the row that the trigger has, so both records carry the same key.  Columns
of a back reference are read from the child's table, where a new row is found under its key
and a deleted one is not: the records of the deletion have no key of the owner.
-/

namespace ChangeTracking.Tracking

/-- The columns of the link are read from the child's own row. -/
def RootLink.isOnRow : RootLink → Bool
  | .foreignKeys _ => true
  | .backReference .. => false

end ChangeTracking.Tracking

namespace ChangeTracking.Firing

open Plan (Operation Origin Owner PlansChildren RowRole TriggerSet joinKey linkOrigin planAll)
open Schema (ColumnPair Entity Model)
open Tracking (Analysis RootLink analyze primaryKey)

/-! ## Rows that are gone -/

namespace Store

variable {store : Store} {e : Entity} {row : Row}

/-- No row of the entity has the key of the given one. -/
def Lacks (store : Store) (e : Entity) (row : Row) : Prop :=
  ∀ other ∈ store.rowsOf e.name, ∃ column ∈ primaryKey e, other.get? column ≠ row.get? column

/-- The store without a row of an entity. -/
def erase (store : Store) (entity : String) (row : Row) : Store :=
  { store with rows := store.rows.filter fun entry => entry != (entity, row) }

theorem mem_rowsOf {entity : String} : row ∈ store.rowsOf entity ↔ (entity, row) ∈ store.rows := by
  simp [rowsOf]

/-- A row that its key singles out is gone, key and all, once it is erased. -/
theorem SinglesOut.lacks_erase (h : store.SinglesOut e row) :
    (store.erase e.name row).Lacks e row := by
  intro other hother
  rw [mem_rowsOf, erase, List.mem_filter, bne_iff_ne] at hother
  by_contra hkey
  have hsame : ∀ column ∈ primaryKey e, other.get? column = row.get? column := by
    simpa using hkey
  exact hother.2 (by rw [h.unique other (mem_rowsOf.mpr hother.1) hsame])

theorem Lacks.find?_eq_none (h : store.Lacks e row)
    (hpresent : ∀ column ∈ primaryKey e, (row.get? column).isSome) :
    store.find? e.name (row.restrict (primaryKey e)) = none := by
  refine List.find?_eq_none.mpr fun other hother hhas => ?_
  obtain ⟨column, hcolumn, hdiffers⟩ := h other hother
  exact hdiffers ((Row.has_restrict_iff hpresent).mp hhas column hcolumn)

/-- What is read back of a row is read from the first one that has its key. -/
theorem valueOver_readBack (store : Store) {key : List String}
    (hpresent : ∀ column ∈ key, (row.get? column).isSome) (entity column : String) :
    store.valueOver (some row) (((Origin.row .subject).readBack entity key).read column) =
      (store.find? entity (row.restrict key)).bind (·.get? column) := by
  have hjoins : ∀ join ∈ selfJoins key, (row.get? join.target).isSome := by
    intro join hjoin
    obtain ⟨column, hcolumn, rfl⟩ := List.mem_map.mp hjoin
    exact hpresent column hcolumn
  have hvalues := filterValues_linkFilters store (held_selfJoins key row) hjoins
  rw [linkFilters_selfJoins, map_target_selfJoins] at hvalues
  show ((store.sceneOf (some row)).filterValues _).bind _ = _
  rw [hvalues]
  rfl

end Store

/-! ## The owner in the records of a row -/

/-- The key of the owner as the linked columns of a row have it. -/
def Row.linkedKey (row : Row) (link : RootLink) : Option String :=
  joinKey (link.joins.map fun join => row.get? join.source)

theorem root_of_mem_records {set : TriggerSet} {op : Operation} {old new : Option Row}
    {store : Store} {skips : Skip.Session} {r : ChangeRecord}
    (hr : r ∈ (fire set op old new store skips).records) :
    r.rootEntity = set.owner.map (·.entity) ∧
      r.rootKey = (Scene.of op old new store skips).value (set.identity .record).rootKey := by
  rw [records_fire] at hr
  obtain ⟨column, -, rfl⟩ := List.mem_map.mp hr
  exact ⟨rfl, rfl⟩

section Links

variable {m : Model} {settings : Settings} {name : String} {a : Analysis} {rootName : String}
  {link : RootLink} {set : TriggerSet} {s : Scene} {role : RowRole} {row : Row} {child : Entity}

theorem value_rootKey_of_isOnRow (h : analyze m name settings = .ok a)
    (hset : PlansChildren m settings a.descriptor rootName link set) (hlink : link.isOnRow = true)
    (hrow : s.row role = some row) :
    s.value (set.identity role).rootKey = row.linkedKey link := by
  cases link with
  | foreignKeys joins => exact value_rootKey h hset hrow
  | backReference field joins => cases hlink

/-- A back reference leads to the owner from the row that is found under the key of the child. -/
theorem value_rootKey_of_readBack (h : analyze m name settings = .ok a)
    (hset : PlansChildren m settings a.descriptor rootName link set) (hlink : link.isOnRow = false)
    (hchild : m.get? set.entity = some child)
    (hpresent : ∀ column ∈ primaryKey child, (row.get? column).isSome)
    (hrow : s.row role = some row) :
    s.value (set.identity role).rootKey =
      joinKey (link.joins.map fun join =>
        (s.store.find? child.name (row.restrict (primaryKey child))).bind (·.get? join.source)) := by
  obtain ⟨child', hget, hprimary, -⟩ := Plan.child_of_plansChildren h hset
  cases hchild.symm.trans hget
  rw [value_rootKey_of_link h hset, hrow]
  refine congrArg joinKey (List.map_congr_left fun join _ => ?_)
  cases link with
  | foreignKeys joins => cases hlink
  | backReference field joins =>
      rw [linkOrigin, hprimary, s.store.valueOver_readBack hpresent,
        Schema.Model.name_of_get? hchild]

/-- A key of which every part is missing is missing, if it has parts at all. -/
theorem joinKey_map_none {joins : List ColumnPair} (h : joins ≠ []) :
    joinKey (joins.map fun _ => none) = none := by
  cases joins with
  | nil => exact absurd rfl h
  | cons join joins => rfl

theorem Row.isSome_linkedKey (h : ∀ join ∈ link.joins, (row.get? join.source).isSome) :
    (row.linkedKey link).isSome := by
  rw [linkedKey, Plan.isSome_joinKey, List.all_map]
  exact List.all_eq_true.mpr h

end Links

/-- Let a planned set have an owner, and a row be created and deleted.  The records of both
name the same entity as the owner.  They carry the same key of the owner, that of the linked
columns, if foreign keys are the link.  If a back reference is the link, the records of the
creation carry this key, but those of the deletion carry none, where the row is found under
its key at the one time and no row is at the other. -/
theorem root_of_create_and_delete {m : Model} {settings : Settings} {name : String} {a : Analysis}
    (h : analyze m name settings = .ok a) {sets : List TriggerSet}
    (hplan : planAll m a.descriptor settings = .ok sets) {set : TriggerSet} (hset : set ∈ sets)
    {o : Owner} (ho : set.owner = some o) :
    ∃ link child, PlansChildren m settings a.descriptor o.entity link set ∧
      m.get? set.entity = some child ∧
      ∀ (row : Row) (present absent : Store) (skips skips' : Skip.Session),
        ∀ r ∈ (fire set .create none (some row) present skips).records,
        ∀ r' ∈ (fire set .delete (some row) none absent skips').records,
          (r.rootEntity = some o.entity ∧ r'.rootEntity = some o.entity) ∧
          (link.isOnRow = true →
            r.rootKey = row.linkedKey link ∧ r'.rootKey = row.linkedKey link) ∧
          (link.isOnRow = false → (∀ join ∈ link.joins, (row.get? join.source).isSome) →
            present.SinglesOut child row → absent.Lacks child row →
            r.rootKey = row.linkedKey link ∧ r.rootKey.isSome ∧ r'.rootKey = none) := by
  obtain ⟨link, hchildren⟩ := Plan.plansChildren_of_owner hplan hset ho
  obtain ⟨child, hchild, -, hjoins⟩ := Plan.child_of_plansChildren h hchildren
  refine ⟨link, child, hchildren, hchild, fun row present absent skips skips' r hr r' hr' => ?_⟩
  obtain ⟨hentity, hkey⟩ := root_of_mem_records hr
  obtain ⟨hentity', hkey'⟩ := root_of_mem_records hr'
  rw [ho] at hentity hentity'
  have hnew : (Scene.of .create none (some row) present skips).row .record = some row := rfl
  have hold : (Scene.of .delete (some row) none absent skips').row .record = some row := rfl
  refine ⟨⟨hentity, hentity'⟩, fun hlink => ?_, fun hlink hlinked hpresent habsent => ?_⟩
  · rw [hkey, hkey', value_rootKey_of_isOnRow h hchildren hlink hnew,
      value_rootKey_of_isOnRow h hchildren hlink hold]
    exact ⟨rfl, rfl⟩
  · -- The one store finds the row itself under its key, the other one finds nothing.
    have hcreated : r.rootKey = row.linkedKey link := by
      rw [hkey, value_rootKey_of_readBack h hchildren hlink hchild hpresent.present hnew]
      show joinKey (link.joins.map fun join => (present.find? _ _).bind _) = _
      rw [hpresent.find?_eq]
      rfl
    have hdeleted : r'.rootKey = none := by
      rw [hkey', value_rootKey_of_readBack h hchildren hlink hchild hpresent.present hold]
      show joinKey (link.joins.map fun join => (absent.find? _ _).bind _) = _
      rw [habsent.find?_eq_none hpresent.present]
      exact joinKey_map_none hjoins
    exact ⟨hcreated, hcreated ▸ Row.isSome_linkedKey hlinked, hdeleted⟩

/-! ## Items that come and go -/

/-- Settings under which deletes are recorded. -/
def preserving : Settings := { preserveDeletes := true }

/-- An item of an order, linked to it by a back reference. -/
def orderedItem : Row := ⟨[("ID", "7"), ("order_ID", "1"), ("amount", "3")]⟩

/-- A table of items that has one row. -/
def itemStore (item : Row) : Store := { rows := [("shop.Items", item)] }

/-- An item is created. -/
def itemCreated (set : TriggerSet) (item : Row) : Outcome :=
  fire set .create none (some item) (itemStore item) {}

/-- The item is deleted again. -/
def itemDeleted (set : TriggerSet) (item : Row) : Outcome :=
  fire set .delete (some item) none ((itemStore item).erase "shop.Items" item) {}

/-- Items of the descriptor have one set, which has an owner and records one column; these are
the keys of the owner in the record of a creation and in that of a deletion. -/
def ItemsCarry (m : Model) (d : Tracking.Descriptor) (item : Row) (key key' : Option String) :
    Prop :=
  ∃ set o r r', planAll m d preserving = .ok [set] ∧ set.owner = some o ∧
    (itemCreated set item).records = [r] ∧ (itemDeleted set item).records = [r'] ∧
    r.rootKey = key ∧ r'.rootKey = key'

theorem itemsCarry_of_planAll {m : Model} {d : Tracking.Descriptor} {item : Row}
    {key key' : Option String}
    (h : (planAll m d preserving).map (fun sets => sets.map fun set =>
      (set.owner.isSome, (itemCreated set item).records.map (·.rootKey),
        (itemDeleted set item).records.map (·.rootKey))) = .ok [(true, [key], [key'])]) :
    ItemsCarry m d item key key' := by
  obtain ⟨sets, hplan, hsets⟩ := map_eq_ok.mp h
  obtain ⟨set, rfl, hset⟩ := List.map_eq_singleton_iff.mp hsets
  obtain ⟨howner, hset⟩ := Prod.mk.inj hset
  obtain ⟨hcreated, hdeleted⟩ := Prod.mk.inj hset
  obtain ⟨o, ho⟩ := Option.isSome_iff_exists.mp howner
  obtain ⟨r, hr, hkey⟩ := List.map_eq_singleton_iff.mp hcreated
  obtain ⟨r', hr', hkey'⟩ := List.map_eq_singleton_iff.mp hdeleted
  exact ⟨set, o, r, r', hplan, ho, hr, hr', hkey, hkey'⟩

/-- An item of a European order carries the key of the order when it comes and when it goes. -/
theorem root_of_europeanItem : ∃ set o r r',
    analyze declaredOrder "shop.Items" preserving = .ok ⟨regionItems declaredJoins, []⟩ ∧
      planAll declaredOrder (regionItems declaredJoins) preserving = .ok [set] ∧
      set.owner = some o ∧
      r ∈ (itemCreated set europeanItem).records ∧ r' ∈ (itemDeleted set europeanItem).records ∧
      (r.rootEntity = some o.entity ∧ r'.rootEntity = some o.entity) ∧
      r.rootKey = europeanItem.linkedKey (.foreignKeys declaredJoins) ∧
      r'.rootKey = europeanItem.linkedKey (.foreignKeys declaredJoins) ∧
      r.rootKey = some "1||EU" := by
  have hanalyze : analyze declaredOrder "shop.Items" preserving =
      .ok ⟨regionItems declaredJoins, []⟩ := by decide +kernel
  obtain ⟨set, o, r, r', hplan, ho, hr, hr', hkey, -⟩ :
      ItemsCarry declaredOrder (regionItems declaredJoins) europeanItem (some "1||EU")
        (some "1||EU") := itemsCarry_of_planAll (by decide +kernel)
  have hr : r ∈ (itemCreated set europeanItem).records := hr ▸ List.mem_singleton_self r
  have hr' : r' ∈ (itemDeleted set europeanItem).records := hr' ▸ List.mem_singleton_self r'
  obtain ⟨link, child, hchildren, -, hroots⟩ :=
    root_of_create_and_delete hanalyze hplan (List.mem_singleton_self set) ho
  have hlink : link = .foreignKeys declaredJoins := by
    generalize o.entity = rootName at hchildren
    cases hchildren with
    | own hbinding _ =>
        cases hbinding
        rfl
    | collection hc _ _ => cases hc
  subst hlink
  obtain ⟨hentities, hkeys, -⟩ := hroots europeanItem _ _ _ _ r hr r' hr'
  obtain ⟨hcreated, hdeleted⟩ := hkeys rfl
  exact ⟨set, o, r, r', hanalyze, hplan, ho, hr, hr', hentities, hcreated, hdeleted, hkey⟩

/-- The record that an ordered item leaves when it is deleted has lost the key of the order, which
the record of its creation has. -/
theorem root_of_orderedItem : ∃ a set o child r r',
    analyze Tracking.orderedItems "shop.Items" preserving = .ok a ∧
      planAll Tracking.orderedItems a.descriptor preserving = .ok [set] ∧ set.owner = some o ∧
      Tracking.orderedItems.get? "shop.Items" = some child ∧
      (orderedItem.get? "order_ID").isSome ∧
      (itemStore orderedItem).SinglesOut child orderedItem ∧
      ((itemStore orderedItem).erase "shop.Items" orderedItem).Lacks child orderedItem ∧
      r ∈ (itemCreated set orderedItem).records ∧ r' ∈ (itemDeleted set orderedItem).records ∧
      r.rootKey = some "1" ∧ r'.rootKey = none := by
  have hanalyze : analyze Tracking.orderedItems "shop.Items" preserving =
      .ok ⟨Tracking.itemsLinkedBy [⟨"ID", "order_ID"⟩], []⟩ := by decide +kernel
  obtain ⟨set, o, r, r', hplan, ho, hr, hr', hkey, hkey'⟩ :
      ItemsCarry Tracking.orderedItems (Tracking.itemsLinkedBy [⟨"ID", "order_ID"⟩]) orderedItem
        (some "1") none := itemsCarry_of_planAll (by decide +kernel)
  obtain ⟨child, hchild⟩ : ∃ child, Tracking.orderedItems.get? "shop.Items" = some child := ⟨_, rfl⟩
  have hname := Schema.Model.name_of_get? hchild
  have hsingle : (itemStore orderedItem).SinglesOut child orderedItem := by
    cases hchild
    exact ⟨by decide +kernel, by decide +kernel, by decide +kernel⟩
  exact ⟨_, set, o, child, r, r', hanalyze, hplan, ho, hchild, by decide, hsingle,
    hname ▸ hsingle.lacks_erase, hr ▸ List.mem_singleton_self r, hr' ▸ List.mem_singleton_self r',
    hkey, hkey'⟩

end ChangeTracking.Firing
