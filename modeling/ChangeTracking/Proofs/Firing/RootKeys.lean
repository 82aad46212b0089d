import ChangeTracking.Proofs.Firing.Binding
import ChangeTracking.Proofs.Plan.Owners
import ChangeTracking.Proofs.Plan.Success
import ChangeTracking.Proofs.Plan.TriggerReads
import Mathlib.Control.Monad.Basic

/-!
# The key of the owner

The key that the records of a child carry for its owner is made of the foreign keys of the
child, in the order in which its association lists them; the key that the owner's own
records carry is made of the key columns in declared order.  So the one is the other where
the association lists the columns as they are declared; the same columns in another order
are another text.
-/

namespace ChangeTracking.Plan

theorem joinKey_singleton (part : Option String) : joinKey [part] = part := by
  cases part with
  | none => rfl
  | some value => rfl

end ChangeTracking.Plan

namespace ChangeTracking.Firing

open Plan (Expr Origin PlansChildren RowRole TriggerSet encodeKey joinKey linkOrigin planEntity)
open Schema (ColumnPair Entity Model)
open Tracking (Analysis RootLink analyze primaryKey)

/-! ## Keys of rows -/

theorem Scene.value_joinedKey (s : Scene) (parts : List Expr) :
    s.value (Plan.joinedKey parts) = joinKey (parts.map s.value) := by
  unfold Plan.joinedKey
  split
  · exact (Plan.joinKey_singleton _).symm
  · rw [value, values_eq_map]

/-- A key is made of the given columns in their order; a row that is not there has none. -/
theorem Store.valueOver_key (store : Store) (row : Option Row) (columns : List String) :
    store.valueOver row (encodeKey columns .subject) =
      joinKey (columns.map fun column => row.bind (·.get? column)) := by
  rw [valueOver, encodeKey, Scene.value_joinedKey, List.map_map]
  refine congrArg joinKey (List.map_congr_left fun column _ => ?_)
  exact (store.sceneOf row).value_rawText (.column .subject column)

/-- The key of a row is made of the given columns in their order. -/
theorem Store.valueOver_encodeKey (store : Store) (row : Row) (columns : List String) :
    store.valueOver (some row) (encodeKey columns .subject) = joinKey (columns.map row.get?) :=
  store.valueOver_key (some row) columns

/-- An optional value that is read from one row has its value over that row. -/
theorem Scene.value_bound (s : Scene) (role : RowRole) {e : Option Expr}
    (h : ∀ e', e = some e' → e'.OnRow .subject) :
    s.value (TriggerSet.bound role e) = e.bind (s.store.valueOver (s.row role)) := by
  cases e with
  | none => rfl
  | some e => exact s.value_bind_of_onRow role (h e rfl)

/-! ## The key of the owner -/

variable {m : Model} {settings : Settings} {s t : Scene} {role role' : RowRole}

/-- The key of the owner is made of what the link reads, in the order of its columns. -/
theorem value_rootKey_of_link {name : String} {a : Analysis} (h : analyze m name settings = .ok a)
    {rootName : String} {link : RootLink} {set : TriggerSet}
    (hset : PlansChildren m settings a.descriptor rootName link set) (s : Scene) (role : RowRole) :
    s.value (set.identity role).rootKey =
      joinKey (link.joins.map fun join => s.store.valueOver (s.row role)
        ((linkOrigin set.entity set.primaryKey link).read join.source)) := by
  obtain ⟨_, _, o, -, -, -, howner, hkey, -⟩ := Plan.owner_of_plansChildren h hset
  have honRow : ∀ e, some o.key = some e → e.OnRow .subject := by
    rintro e ⟨⟩
    rw [hkey]
    refine Plan.onRow_joinedKey fun e he => ?_
    obtain ⟨join, -, rfl⟩ := List.mem_map.mp he
    exact Expr.onRow_encoded.mpr ((Plan.onRow_linkOrigin _ _ link).read join.source)
  show s.value (TriggerSet.bound role (set.owner.map (·.key))) = _
  rw [howner, Option.map_some, s.value_bound role honRow, Option.bind_some, hkey,
    Store.valueOver, Scene.value_joinedKey, List.map_map]
  exact congrArg joinKey (List.map_congr_left fun join _ => Scene.value_rawText _ _)

/-- The key of the owner is made of the child's foreign keys, as its association lists them. -/
theorem value_rootKey {name : String} {a : Analysis} (h : analyze m name settings = .ok a)
    {rootName : String} {joins : List ColumnPair} {set : TriggerSet}
    (hset : PlansChildren m settings a.descriptor rootName (.foreignKeys joins) set)
    {child : Row} (hchild : s.row role = some child) :
    s.value (set.identity role).rootKey =
      joinKey (joins.map fun join => child.get? join.source) := by
  rw [value_rootKey_of_link h hset, hchild]
  rfl

/-- The key that an entity's own records carry is made of its key columns in declared order. -/
theorem value_entityKey {set : TriggerSet} {columns : List String}
    (hkey : set.key = encodeKey columns .subject) {row : Row} (hrow : s.row role = some row) :
    s.value (set.identity role).entityKey = joinKey (columns.map row.get?) := by
  have honRow : set.key.OnRow .subject := hkey ▸ Plan.onRow_encodeKey columns .subject
  show s.value (set.key.bind role) = _
  rw [s.value_bind_of_onRow role honRow, hkey, hrow, Store.valueOver_encodeKey]

/-- The records of a child whose foreign keys hold the key of its owner carry the key columns
of the owner's row in the order of the association.  Where the association lists them in
declared order, this is the key that the owner's own records carry. -/
theorem rootKey_lists_key_of_owner {name : String} {a : Analysis}
    (h : analyze m name settings = .ok a) {rootName : String} {joins : List ColumnPair}
    {set : TriggerSet}
    (hset : PlansChildren m settings a.descriptor rootName (.foreignKeys joins) set)
    {root : Entity} (hget : m.get? rootName = some root)
    {rootAnalysis : Analysis} (hroot : analyze m rootName settings = .ok rootAnalysis)
    {own : TriggerSet} (hown : planEntity m rootAnalysis.descriptor settings = .ok (some own))
    {child row : Row} (hheld : ∀ join ∈ joins, child.get? join.source = row.get? join.target)
    (hchild : s.row role = some child) (hrow : t.row role' = some row) :
    s.value (set.identity role).rootKey = joinKey ((joins.map (·.target)).map row.get?) ∧
      (joins.map (·.target) = primaryKey root →
        s.value (set.identity role).rootKey = t.value (own.identity role').entityKey) := by
  have hlisted : s.value (set.identity role).rootKey =
      joinKey ((joins.map (·.target)).map row.get?) := by
    rw [value_rootKey h hset hchild, List.map_map]
    exact congrArg joinKey (List.map_congr_left hheld)
  refine ⟨hlisted, fun horder => ?_⟩
  obtain ⟨root', _, _, hget', hprojection, -⟩ := Plan.owner_of_foreignKeys h hset
  rw [hget] at hget'
  cases hget'
  have hkey := (Plan.identity_of_ownSet hget hprojection hroot hown).1
  rw [hlisted, horder, value_entityKey hkey hrow]

/-! ## Orders of a region -/

/-- Orders, known by a number and a region, and their items, which list the two as given. -/
def regionEntities (keys : List String) : NameMap Entity :=
  NameMap.ofList [
    ("shop.Orders", {
      name := "shop.Orders"
      elements := [
        { name := "ID", isKey := true },
        { name := "region", isKey := true },
        { name := "status", directive := some (.marker true) },
        { name := "items", type := "cds.Composition"
          association := some {
            kind := .composition, target := "shop.Items", many := true
            on := [⟨"order_ID", "ID"⟩, ⟨"order_region", "region"⟩] } }] }),
    ("shop.Items", {
      name := "shop.Items"
      elements := [
        { name := "ID", isKey := true },
        { name := "order", type := "cds.Association"
          association := some { kind := .reference, target := "shop.Orders", keys := keys } },
        { name := "amount", directive := some (.marker true) }] })]

/-- Items list the key of their order as it is declared. -/
def declaredOrder : Model := ⟨regionEntities ["ID", "region"], by decide⟩

/-- Items list the key of their order the other way round. -/
def swappedOrder : Model := ⟨regionEntities ["region", "ID"], by decide⟩

/-- A plain text attribute. -/
def textAttribute (name : String) : Tracking.Attribute :=
  Tracking.plainAttribute { name := name }

/-- The descriptor of the orders. -/
def regionOrders : Tracking.Descriptor where
  entity := "shop.Orders"
  service := none
  primaryKey := ["ID", "region"]
  attributes := [textAttribute "status"]
  identity := []
  collections := []
  binding := none

/-- The descriptor of the items that reach their order by the given columns. -/
def regionItems (joins : List ColumnPair) : Tracking.Descriptor where
  entity := "shop.Items"
  service := none
  primaryKey := ["ID"]
  attributes := [textAttribute "amount"]
  identity := []
  collections := []
  binding := some ⟨"shop.Orders", .foreignKeys joins, []⟩

/-- The pairs of the declared order. -/
def declaredJoins : List ColumnPair := [⟨"ID", "order_ID"⟩, ⟨"region", "order_region"⟩]

theorem analyze_regionOrders :
    ∀ m ∈ [declaredOrder, swappedOrder], analyze m "shop.Orders" {} = .ok ⟨regionOrders, []⟩ := by
  decide +kernel

theorem analyze_regionItems :
    analyze declaredOrder "shop.Items" {} = .ok ⟨regionItems declaredJoins, []⟩ ∧
      analyze swappedOrder "shop.Items" {} = .ok ⟨regionItems declaredJoins.reverse, []⟩ := by
  decide +kernel

/-- An order of the region. -/
def europeanOrder : Row := ⟨[("ID", "1"), ("region", "EU"), ("status", "open")]⟩

/-- An item of this order. -/
def europeanItem : Row :=
  ⟨[("ID", "7"), ("order_ID", "1"), ("order_region", "EU"), ("amount", "3")]⟩

/-- Where items list the key of their order as it is declared, they carry the order's key. -/
theorem rootKey_of_declaredOrder :
    ∃ root set own, declaredOrder.get? "shop.Orders" = some root ∧
      PlansChildren declaredOrder {} (regionItems declaredJoins) "shop.Orders"
        (.foreignKeys declaredJoins) set ∧
      planEntity declaredOrder regionOrders {} = .ok (some own) ∧
      (∀ join ∈ declaredJoins,
        europeanItem.get? join.source = europeanOrder.get? join.target) ∧
      declaredJoins.map (·.target) = primaryKey root ∧
      ((Store.sceneOfNew {} europeanItem).value (set.identity .new).rootKey =
          joinKey ((declaredJoins.map (·.target)).map europeanOrder.get?) ∧
        (declaredJoins.map (·.target) = primaryKey root →
          (Store.sceneOfNew {} europeanItem).value (set.identity .new).rootKey =
            (Store.sceneOfNew {} europeanOrder).value (own.identity .new).entityKey)) := by
  have hitems := analyze_regionItems.1
  have horders := analyze_regionOrders declaredOrder (by simp)
  obtain ⟨set, hset⟩ := Plan.exists_ownSet hitems rfl
  obtain ⟨own, hown⟩ := Plan.exists_ownSet horders rfl
  have hchildren := PlansChildren.own rfl hset
  have hheld : ∀ join ∈ declaredJoins,
      europeanItem.get? join.source = europeanOrder.get? join.target := by decide
  exact ⟨_, set, own, rfl, hchildren, hown, hheld, rfl,
    rootKey_lists_key_of_owner hitems hchildren rfl horders hown hheld rfl rfl⟩

/-- Where items list the same key columns the other way round, and hold them, they carry a key
that is not the order's own. -/
theorem rootKey_of_swappedOrder :
    ∃ root a rootAnalysis joins set own, swappedOrder.get? "shop.Orders" = some root ∧
      analyze swappedOrder "shop.Items" {} = .ok a ∧
      analyze swappedOrder "shop.Orders" {} = .ok rootAnalysis ∧
      PlansChildren swappedOrder {} a.descriptor "shop.Orders" (.foreignKeys joins) set ∧
      planEntity swappedOrder rootAnalysis.descriptor {} = .ok (some own) ∧
      (joins.map (·.target)).Perm (primaryKey root) ∧
      (∀ join ∈ joins, (europeanOrder.get? join.target).isSome ∧
        europeanItem.get? join.source = europeanOrder.get? join.target) ∧
      (Store.sceneOfNew {} europeanItem).value (set.identity .new).rootKey = some "EU||1" ∧
      (Store.sceneOfNew {} europeanOrder).value (own.identity .new).entityKey = some "1||EU" := by
  have hitems := analyze_regionItems.2
  have horders := analyze_regionOrders swappedOrder (by simp)
  obtain ⟨set, hset⟩ := Plan.exists_ownSet hitems rfl
  obtain ⟨own, hown⟩ := Plan.exists_ownSet horders rfl
  have hchildren := PlansChildren.own rfl hset
  obtain ⟨entity, -, hkey, -⟩ := Plan.identity_of_planEntity hown
  have hitem : (Store.sceneOfNew {} europeanItem).row .new = some europeanItem := rfl
  have horder : (Store.sceneOfNew {} europeanOrder).row .new = some europeanOrder := rfl
  refine ⟨_, _, _, _, set, own, rfl, hitems, horders, hchildren, hown, by decide, by decide, ?_, ?_⟩
  · rw [value_rootKey hitems hchildren hitem]
    decide +kernel
  · rw [value_entityKey hkey horder]
    decide +kernel

end ChangeTracking.Firing
