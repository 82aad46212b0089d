import ChangeTracking.Proofs.Plan.Owners
import ChangeTracking.Proofs.Plan.Policies
import ChangeTracking.Proofs.Plan.Success
import ChangeTracking.Proofs.Plan.TriggerReads

/-!
# Operands of planned expressions

Joins and alternatives have operands, and lookups have filters: every link, every hop and
every tracked attribute names columns.  The one exception is the key of a record.  Analysis
refuses an entity without a key, but it does not look at the key of a child that is tracked
as part of a collection; the set of such a collection is well formed exactly where the child
has a key.
-/

namespace ChangeTracking.Plan

open Schema (Entity Hop Model Route)
open Tracking (Analysis Collection Descriptor IdentityField RootLink analyze primaryKey)

/-- The expression itself has the operands that its meaning needs. -/
def HasOperands : Expr → Prop
  | .keyJoin parts => parts ≠ []
  | .listJoin parts => parts ≠ []
  | .firstOf parts => 2 ≤ parts.length
  | .lookup _ _ filters => filters ≠ []
  | _ => True

instance : DecidablePred HasOperands
  | .keyJoin parts => inferInstanceAs (Decidable (parts ≠ []))
  | .listJoin parts => inferInstanceAs (Decidable (parts ≠ []))
  | .firstOf parts => inferInstanceAs (Decidable (2 ≤ parts.length))
  | .lookup _ _ filters => inferInstanceAs (Decidable (filters ≠ []))
  | .null | .text _ | .column .. | .variable _ | .locale | .encoded .. => .isTrue trivial

/-! ## The policy of operands -/

/-- Every column may be read, but a record of a table has to be found by some column. -/
def operands : Policy where
  onRow _ := True
  inTable _ found _ := found ≠ []
  emptyKeys := False

theorem hasOperands_of_allows {e : Expr} (h : operands.Allows e) : HasOperands e := by
  cases e with
  | lookup entity name filters => exact fun hnil => h (by rw [hnil, List.map_nil])
  | keyJoin parts => exact h.resolve_right id
  | listJoin parts => exact h
  | firstOf parts => exact h
  | _ => trivial

/-- The record is the row at hand, or found by some column. -/
def Place.IsFound : Place → Prop
  | .row => True
  | .table _ found => found ≠ []

namespace Place

variable {place : Place}

theorem IsFound.at (h : place.IsFound) (column : String) : operands.At place column := by
  cases place with
  | row => trivial
  | table name found => exact h

theorem isFound_row : row.IsFound := trivial

theorem isFound_behind {hop : Hop} (h : hop.joins ≠ []) : (behind hop).IsFound :=
  fun hnil => h (List.map_eq_nil_iff.mp hnil)

theorem IsFound.readBack (h : place.IsFound) (entity : String) {key : List String}
    (hkey : key ≠ []) : (place.readBack entity key).IsFound := by
  cases place with
  | row => exact hkey
  | table name found => exact h

/-- Every hop finds the next record by some column. -/
theorem IsFound.along (h : place.IsFound) {hops : List Hop} (hhops : ∀ hop ∈ hops, hop.joins ≠ []) :
    operands.AllowsHops place hops ∧ (place.along hops).IsFound := by
  induction hops generalizing place with
  | nil => exact ⟨trivial, h⟩
  | cons hop hops ih =>
      obtain ⟨hjoins, hhops⟩ := List.forall_mem_cons.mp hhops
      obtain ⟨hallows, hend⟩ := ih (isFound_behind hjoins) hhops
      exact ⟨⟨fun join _ => h.at join.source, hallows⟩, hend⟩

end Place

section Operands

variable {m : Model} {place : Place}

theorem operands_route (h : place.IsFound) {start : Entity} {path : String} {route : Route}
    (hroute : m.route start path = .ok route) : operands.AllowsRoute m place route := by
  obtain ⟨hhops, hend⟩ := h.along (Schema.Model.leads_of_route hroute).joins_ne_nil
  exact {
    hops := hhops
    columns := fun column _ => hend.at column
    translations := fun _ _ _ _ _ => List.append_ne_nil_of_right_ne_nil _ (List.cons_ne_nil _ _)
    translationKey := fun _ _ _ _ => trivial }

theorem operands_fields (h : place.IsFound) (entity : Entity) {key : List String} (hkey : key ≠ [])
    (fields : List IdentityField) : operands.AllowsFields m entity key place fields := by
  intro field _ route hroute
  refine operands_route ?_ hroute
  unfold fieldPlace
  split
  · exact h.readBack entity.name hkey
  · exact h

theorem operands_key {key : List String} (h : key ≠ []) : operands.AllowsKey key :=
  ⟨.inl h, fun _ _ => trivial⟩

theorem operands_owner (child : String) {childKey : List String} (hkey : childKey ≠ [])
    {link : RootLink} (hlink : link.joins ≠ []) (root : Entity) (fields : List IdentityField) :
    operands.AllowsOwner m child childKey link root fields := by
  have htargets : link.joins.map (·.target) ≠ [] := fun hnil => hlink (List.map_eq_nil_iff.mp hnil)
  have hroot : (Place.table root.name (link.joins.map (·.target))).IsFound := htargets
  have hchild : (linkPlace child childKey link).IsFound := by
    cases link with
    | foreignKeys joins => trivial
    | backReference field joins => exact hkey
  exact ⟨.inl hlink, fun join _ => hchild.at join.source,
    operands_fields hroot root htargets fields⟩

end Operands

/-! ## Planned sets -/

section Sets

variable {m : Model} {settings settings' : Settings} {name : String} {a : Analysis}
  {sets : List TriggerSet} {set : TriggerSet}

/-- A tracked attribute has columns to compare. -/
theorem watched_ne_nil {db : Entity} {element : Schema.Element} {tracked : Tracking.Attribute}
    (h : Tracking.TrackedAs m db element tracked) : tracked.watched ≠ [] := by
  cases h with
  | plain _ => exact List.cons_ne_nil _ _
  | relation paths _ hcolumns =>
      -- An association without key columns is tracked only if its condition has terms.
      rw [Tracking.watched_relationAttribute]
      split
      · rename_i hempty
        have hterms := hcolumns.resolve_left fun hne => hne (List.isEmpty_iff.mp hempty)
        exact fun hnil => hterms (List.map_eq_nil_iff.mp hnil)
      · rename_i hkeys
        exact fun hnil => hkeys (List.isEmpty_iff.mpr hnil)

theorem operands_own (h : analyze m name settings = .ok a) (hkey : a.descriptor.primaryKey ≠ [])
    (entity : Entity) : operands.AllowsOwn m a.descriptor entity where
  key := operands_key hkey
  identity := operands_fields Place.isFound_row entity hkey _
  owner := fun binding hbinding root _ => by
    obtain ⟨_, _, -, -, hlink⟩ := Tracking.link_of_binding h hbinding
    exact operands_owner _ hkey (Tracking.joins_ne_nil_of_rootLink hlink) root _
  watched := fun tracked htracked => by
    obtain ⟨_, _, -, -, -, has⟩ := Tracking.trackedAs_of_mem_attributes h htracked
    exact operands_key (watched_ne_nil has)
  labels := fun _ _ _ _ _ hroute => operands_route Place.isFound_row hroute

theorem operands_collection (h : analyze m name settings = .ok a) {c : Collection}
    (hc : c ∈ a.descriptor.collections) (hkey : c.targetKeys ≠ []) (target : Entity) :
    operands.AllowsCollection m a.descriptor c target where
  key := operands_key hkey
  identity := operands_fields Place.isFound_row target hkey _
  owner := fun link hlink root _ => by
    obtain ⟨_, _, -, -, _, _, -, -, rfl⟩ := Tracking.collectedAs_of_mem_collections h hc
    exact operands_owner _ hkey (Tracking.joins_ne_nil_of_rootLink hlink) root _

/-- Where the key of the table has columns, everything that the set evaluates has operands. -/
theorem hasOperands_of_planAll (h : analyze m name settings = .ok a)
    (hplan : planAll m a.descriptor settings' = .ok sets) (hset : set ∈ sets)
    (hkey : set.primaryKey ≠ []) : ∀ e ∈ set.expressions, e.Everywhere HasOperands := by
  suffices hallows : ∀ e ∈ set.expressions, e.Everywhere operands.Allows from
    fun e he => (hallows e he).mono fun _ => hasOperands_of_allows
  rcases mem_planAll hplan hset with hown | ⟨c, hc, hcollection⟩
  · obtain ⟨-, -, -, hprimary⟩ := table_of_planEntity hown
    rw [hprimary] at hkey
    exact (Policy.AllowsOwn.allowsSet (fun entity _ => operands_own h hkey entity) hown).expressions
  · obtain ⟨_, -, -, -, hprimary⟩ := table_of_planCollection hcollection
    rw [hprimary] at hkey
    exact (Policy.AllowsCollection.allowsSet
      (fun target _ => operands_collection h hc hkey target) hcollection).expressions

/-- Without columns the key of a set has no operands. -/
theorem not_hasOperands_of_primaryKey (hplan : planAll m a.descriptor settings' = .ok sets)
    (hset : set ∈ sets) (hkey : set.primaryKey = []) : ¬ set.key.Everywhere HasOperands := by
  -- The key of no columns is the join of no parts.
  rw [(identity_of_planAll hplan hset).1, hkey]
  exact fun h => h.self rfl

/-- A set is on the table of a registered entity, and known by its key; the own set of an
entity has one. -/
theorem table_of_planAll (h : analyze m name settings = .ok a)
    (hplan : planAll m a.descriptor settings' = .ok sets) (hset : set ∈ sets) :
    ∃ table, m.get? set.entity = some table ∧ set.primaryKey = primaryKey table ∧
      (set.collection = none → set.primaryKey ≠ []) := by
  rcases mem_planAll hplan hset with hown | ⟨c, hc, hcollection⟩
  · obtain ⟨hattributes, hentity, -, hprimary⟩ := table_of_planEntity hown
    obtain ⟨db, _, hget, -, -, hkey, -⟩ := database_of_analyze h
    rw [hentity, hprimary]
    exact ⟨db, hget, hkey, fun _ => Tracking.primaryKey_ne_nil_of_analyze h (.inl hattributes)⟩
  · obtain ⟨target, htarget, hentity, hcollected, hprimary⟩ := table_of_planCollection hcollection
    obtain ⟨_, _, -, -, _, _, hget, -, rfl⟩ := Tracking.collectedAs_of_mem_collections h hc
    rw [Schema.Model.entity_eq_ok_iff, hget] at htarget
    cases htarget
    rw [hentity, hprimary, hcollected]
    exact ⟨target, hget, rfl, fun hnone => by cases hnone⟩

end Sets

/-- What was analyzed is planned, and each planned set is on the table of an entity of the
model, by whose key columns its records are known.  The own set of an entity has such
columns.  Everything that a set evaluates has operands, at every depth, exactly where its
key has columns: every join has a part, every alternative two, and every lookup a filter. -/
theorem planned_set_hasOperands_iff_key {m : Model} {name : String} {settings : Settings}
    {a : Analysis} (h : analyze m name settings = .ok a) (settings' : Settings) :
    ∃ sets, planAll m a.descriptor settings' = .ok sets ∧
      ∀ set ∈ sets, ∃ table, m.get? set.entity = some table ∧
        set.primaryKey = primaryKey table ∧
        (set.collection = none → set.primaryKey ≠ []) ∧
        ((∀ e ∈ set.expressions, e.Everywhere HasOperands) ↔ set.primaryKey ≠ []) := by
  obtain ⟨sets, hplan⟩ := exists_planAll h settings'
  refine ⟨sets, hplan, fun set hset => ?_⟩
  obtain ⟨table, hget, hprimary, hown⟩ := table_of_planAll h hplan hset
  refine ⟨table, hget, hprimary, hown, ?_, hasOperands_of_planAll h hplan hset⟩
  intro hoperands hnil
  exact not_hasOperands_of_primaryKey hplan hset hnil (hoperands _ List.mem_cons_self)

/-- The shelves of the library and their books have sets with operands. -/
theorem librarySets_haveOperands : ∃ a sets, analyze libraryModel "lib.Shelves" {} = .ok a ∧
    planAll libraryModel a.descriptor {} = .ok sets ∧
    sets.map (·.primaryKey) = [["ID"], ["ID"]] ∧
    ∀ set ∈ sets, ∃ table, libraryModel.get? set.entity = some table ∧
      set.primaryKey = primaryKey table ∧
      (set.collection = none → set.primaryKey ≠ []) ∧
      ((∀ e ∈ set.expressions, e.Everywhere HasOperands) ↔ set.primaryKey ≠ []) := by
  have hkeys : ((analyze libraryModel "lib.Shelves" {}).toOption.bind fun a =>
      (planAll libraryModel a.descriptor {}).toOption).map (fun sets => sets.map (·.primaryKey)) =
        some [["ID"], ["ID"]] := by decide +kernel
  cases ha : analyze libraryModel "lib.Shelves" {} with
  | error fault =>
      rw [ha] at hkeys
      cases hkeys
  | ok a =>
      obtain ⟨sets, hplan, hsets⟩ := planned_set_hasOperands_iff_key ha {}
      rw [ha] at hkeys
      simp only [Except.toOption, Option.bind_some, hplan, Option.map_some, Option.some.injEq]
        at hkeys
      exact ⟨a, sets, rfl, hplan, hkeys, hsets⟩

/-- Orders whose notes have no key. -/
def notesModel : Model where
  entities := NameMap.ofList [
    ("shop.Orders", {
      name := "shop.Orders"
      elements := [
        { name := "ID", isKey := true },
        { name := "notes", type := "cds.Composition"
          association := some {
            kind := .composition, target := "shop.Notes", many := true
            on := [⟨"order_ID", "ID"⟩] }
          directive := some (.paths ["notes.text"]) }] }),
    ("shop.Notes", {
      name := "shop.Notes"
      elements := [
        { name := "text" },
        { name := "order", type := "cds.Association"
          association := some { kind := .reference, target := "shop.Orders", keys := ["ID"] } }] })]
  checked := by decide

/-- The notes of an order are planned without a key: their entity key joins nothing. -/
theorem noteSet_lacks_operands : ∃ a sets set, analyze notesModel "shop.Orders" {} = .ok a ∧
    planAll notesModel a.descriptor {} = .ok sets ∧ set ∈ sets ∧ set.primaryKey = [] ∧
    set.key ∈ set.expressions ∧ ¬ set.key.Everywhere HasOperands := by
  have hset : ((analyze notesModel "shop.Orders" {}).toOption.bind fun a =>
      (planAll notesModel a.descriptor {}).toOption.bind List.head?).map (·.primaryKey) =
        some [] := by decide +kernel
  cases ha : analyze notesModel "shop.Orders" {} with
  | error fault =>
      rw [ha] at hset
      cases hset
  | ok a =>
      obtain ⟨sets, hplan⟩ := exists_planAll ha {}
      rw [ha] at hset
      simp only [Except.toOption, Option.bind_some, hplan] at hset
      obtain ⟨set, hhead, hkey⟩ := Option.map_eq_some_iff.mp hset
      have hmem : set ∈ sets := List.mem_of_head? hhead
      exact ⟨a, sets, set, rfl, hplan, hmem, hkey, List.mem_cons_self,
        not_hasOperands_of_primaryKey hplan hmem hkey⟩

end ChangeTracking.Plan
