import ChangeTracking.Proofs.Firing.Binding
import ChangeTracking.Proofs.Schema.Routes
import Mathlib.Control.Monad.Basic

/-!
# Navigation

A path is planned as nested look-ups: every column that a hop compares spells out the
whole chain before it.  The main statement is that the value of such an expression is
found by walking from record to record, each of them looked for once.
-/

namespace ChangeTracking.Firing

open Plan (Expr Origin RowRole TextRule pathValue routeValue terminal)
open Schema (ColumnPair Entity Hop Model Route)
open Tracking (ValueClass)

/-! ## Walking from record to record -/

/-- The row has, in the target column of every pair, the value that the record before it
has in the source column. -/
def Row.follows (next previous : Row) (joins : List ColumnPair) : Bool :=
  joins.all fun join =>
    (previous.get? join.source).isSome && next.get? join.target == previous.get? join.source

namespace Store

/-- The record that a hop leads to: the first row of the hop's entity that follows the
record before it. -/
def nextRecord (store : Store) (record : Option Row) (hop : Hop) : Option Row :=
  record.bind fun previous => (store.rowsOf hop.entity).find? (·.follows previous hop.joins)

/-- The record at the end of the hops from a row. -/
def lastRecord (store : Store) (start : Row) (hops : List Hop) : Option Row :=
  hops.foldl store.nextRecord (some start)

end Store

/-- A value of a class as it is recorded. -/
def recordedText (valueClass : ValueClass) (value : String) : String :=
  match valueClass with
  | .boolean => Plan.booleanName value
  | .string | .largeString => Plan.truncate value
  | _ => value

/-- What is recorded of the record at the end of a route: its one column by the declared
type, or its columns as one key. -/
def recordedColumns? (route : Route) (record : Option Row) : Option String :=
  match route.columns with
  | [column] => (record.bind (·.get? column)).map (recordedText (.ofDeclared route.type))
  | columns => Plan.joinKey (columns.map fun column => record.bind (·.get? column))

theorem recordedColumns?_of_column {route : Route} {column : String}
    (h : route.columns = [column]) (record : Option Row) :
    recordedColumns? route record =
      (record.bind (·.get? column)).map (recordedText (.ofDeclared route.type)) := by
  rw [recordedColumns?, h]

theorem recordedColumns?_of_key {route : Route} (h : ∀ column, route.columns ≠ [column])
    (record : Option Row) :
    recordedColumns? route record =
      Plan.joinKey (route.columns.map fun column => record.bind (·.get? column)) := by
  unfold recordedColumns?
  split
  · rename_i column hcolumn
    exact absurd hcolumn (h column)
  · rfl

theorem apply_of_valueClass (valueClass : ValueClass) :
    (TextRule.of valueClass).apply = recordedText valueClass := by
  cases valueClass <;> rfl

/-! ## Origins of records -/

/-- Whatever is read from the origin is read from the record. -/
def Scene.Reaches (s : Scene) (origin : Origin) (record : Option Row) : Prop :=
  ∀ column, s.value (origin.read column) = record.bind (·.get? column)

namespace Scene

variable {s : Scene} {origin : Origin} {record : Option Row}

theorem reaches_row (s : Scene) (role : RowRole) : s.Reaches (.row role) (s.row role) :=
  fun _ => by rw [Origin.read, value]

/-- The values that a hop compares select the rows that follow the record; where one of
them is missing no row does. -/
theorem filterValues_joins {previous : Row} (h : s.Reaches origin (some previous))
    (joins : List ColumnPair) (next : Row) :
    (s.filterValues (joins.map fun join => (join.target, origin.read join.source))).any next.has =
      next.follows previous joins := by
  induction joins with
  | nil => simp [filterValues, Row.has, Row.follows]
  | cons join joins ih =>
      have hsource : s.value (origin.read join.source) = previous.get? join.source := h join.source
      rw [List.map_cons, filterValues, hsource, Row.follows, List.all_cons, ← Row.follows, ← ih]
      cases hvalue : previous.get? join.source with
      | none => simp
      | some v =>
          cases s.filterValues (joins.map fun join => (join.target, origin.read join.source)) with
          | none => simp
          | some values => simp [Row.has]

/-- A look-up by what a record has finds the first row that follows it. -/
theorem find?_joins_of_record {previous : Row} (h : s.Reaches origin (some previous))
    (entity : String) (joins : List ColumnPair) :
    ((s.filterValues (joins.map fun join => (join.target, origin.read join.source))).bind
      (s.store.find? entity)) = (s.store.rowsOf entity).find? (·.follows previous joins) := by
  have hfollows := filterValues_joins h joins
  cases hvalues : s.filterValues (joins.map fun join => (join.target, origin.read join.source)) with
  | none =>
      rw [hvalues] at hfollows
      refine (List.find?_eq_none.mpr fun next _ => ?_).symm
      simp [← hfollows next]
  | some values =>
      rw [hvalues] at hfollows
      simp [Store.find?, ← hfollows]

/-- A look-up along a hop finds the next record. -/
theorem find?_joins (h : s.Reaches origin record) {hop : Hop} (hjoins : hop.joins ≠ []) :
    ((s.filterValues (hop.joins.map fun join => (join.target, origin.read join.source))).bind
      (s.store.find? hop.entity)) = s.store.nextRecord record hop := by
  cases record with
  | none =>
      -- Without a record the first of the compared values is missing.
      obtain ⟨join, joins, hcons⟩ := List.exists_cons_of_ne_nil hjoins
      have hsource : s.value (origin.read join.source) = none := h join.source
      rw [hcons, List.map_cons, filterValues, hsource]
      rfl
  | some previous => exact find?_joins_of_record h hop.entity hop.joins

/-- A hop leads from the origin of a record to the origin of the next one. -/
theorem Reaches.hop (h : s.Reaches origin record) {next : Hop} (hjoins : next.joins ≠ []) :
    s.Reaches (origin.hop next) (s.store.nextRecord record next) := by
  intro column
  rw [Origin.hop, Origin.read, value, ← find?_joins h hjoins, Option.bind_assoc]

/-- Hops lead from the origin of a record to the origin of the record at their end. -/
theorem Reaches.along (h : s.Reaches origin record) (hops : List Hop)
    (hjoins : ∀ hop ∈ hops, hop.joins ≠ []) :
    s.Reaches (origin.along hops) (hops.foldl s.store.nextRecord record) := by
  induction hops generalizing origin record with
  | nil => exact h
  | cons next hops ih =>
      obtain ⟨hnext, hhops⟩ := List.forall_mem_cons.mp hjoins
      exact ih (h.hop hnext) hhops

end Scene

/-! ## Paths -/

variable {m : Model} {route : Route}

/-- A column without translations is read as it is. -/
theorem terminal_of_plain (h : route.isLocalized = false ∨
      (m.get? route.holder).bind (·.texts) = none) (origin : Origin) (column : String) :
    terminal m route origin column = origin.read column := by
  unfold terminal
  rcases h with hlocalized | htexts
  · rw [hlocalized]
  · rw [htexts]
    cases route.isLocalized <;> rfl

theorem Scene.value_routeValue {s : Scene} {origin : Origin} {record : Option Row}
    (h : s.Reaches (origin.along route.hops) record)
    (hplain : route.isLocalized = false ∨ (m.get? route.holder).bind (·.texts) = none) :
    s.value (routeValue m route origin) = recordedColumns? route record := by
  by_cases hcolumns : ∃ column, route.columns = [column]
  · obtain ⟨column, hcolumn⟩ := hcolumns
    rw [Plan.routeValue_of_column hcolumn, recordedColumns?_of_column hcolumn, Plan.encode, value,
      terminal_of_plain hplain, h, apply_of_valueClass]
  · have hkey : ∀ column, route.columns ≠ [column] := not_exists.mp hcolumns
    rw [Plan.routeValue_of_key hkey, recordedColumns?_of_key hkey, value_keyOfTexts]
    exact congrArg Plan.joinKey (List.map_congr_left fun column _ => h column)

/-- Where a path resolves and its value has no translations, the planned expression has
the value that a walk over the records finds: from the row along the hops, to the first
row of each hop's entity that agrees with the record before it, and to the recorded form
of the columns at the end. -/
theorem pathValue_walks_records {start : Entity} {path : String}
    (hroute : m.route start path = .ok route)
    (hplain : route.isLocalized = false ∨ (m.get? route.holder).bind (·.texts) = none)
    (s : Scene) {role : RowRole} {row : Row} (hrow : s.row role = some row) :
    ∃ e, pathValue m start path (.row role) = .ok e ∧
      s.value e = recordedColumns? route (s.store.lastRecord row route.hops) := by
  refine ⟨routeValue m route (.row role), ?_, ?_⟩
  · rw [pathValue, hroute]
    rfl
  · have hstart : s.Reaches (.row role) (some row) := hrow ▸ Scene.reaches_row s role
    exact Scene.value_routeValue
      (hstart.along route.hops (Model.leads_of_route hroute).joins_ne_nil) hplain

/-- Bookings of guests, who are known by two columns and have an agent. -/
def travelModel : Model where
  entities := NameMap.ofList [
    ("trip.Bookings", {
      name := "trip.Bookings"
      elements := [
        { name := "ID", isKey := true },
        { name := "guest", type := "cds.Association"
          association := some {
            kind := .reference, target := "trip.Guests", keys := ["country", "number"] } }] }),
    ("trip.Guests", {
      name := "trip.Guests"
      elements := [
        { name := "country", isKey := true },
        { name := "number", isKey := true },
        { name := "agent_ID" },
        { name := "agent", type := "cds.Association"
          association := some {
            kind := .reference, target := "trip.Agents", on := [⟨"ID", "agent_ID"⟩] } }] }),
    ("trip.Agents", {
      name := "trip.Agents"
      elements := [
        { name := "ID", isKey := true },
        { name := "licensed", type := "cds.Boolean" }] })]
  checked := by decide

/-- Two hops, the first of which compares two columns. -/
def licenceRoute : Route where
  hops := [
    ⟨"trip.Guests", [⟨"country", "guest_country"⟩, ⟨"number", "guest_number"⟩]⟩,
    ⟨"trip.Agents", [⟨"ID", "agent_ID"⟩]⟩]
  columns := ["licensed"]
  holder := "trip.Agents"
  type := "cds.Boolean"
  isLocalized := false
  isComputed := false

/-- Guests of two countries under one number, and their agents. -/
def travelStore : Store where
  rows := [
    ("trip.Guests", ⟨[("country", "FR"), ("number", "7"), ("agent_ID", "a2")]⟩),
    ("trip.Guests", ⟨[("country", "DE"), ("number", "7"), ("agent_ID", "a1")]⟩),
    ("trip.Agents", ⟨[("ID", "a1"), ("licensed", "1")]⟩),
    ("trip.Agents", ⟨[("ID", "a2"), ("licensed", "0")]⟩)]

/-- A booking of the German guest. -/
def germanBooking : Row := ⟨[("ID", "b1"), ("guest_country", "DE"), ("guest_number", "7")]⟩

/-- The agent of the German guest is found over two hops, and is licensed. -/
theorem pathValue_licence : ∃ start e,
    travelModel.get? "trip.Bookings" = some start ∧
      travelModel.route start "guest.agent.licensed" = .ok licenceRoute ∧
      licenceRoute.isLocalized = false ∧
      (travelStore.sceneOfNew germanBooking).row .new = some germanBooking ∧
      pathValue travelModel start "guest.agent.licensed" (.row .new) = .ok e ∧
      (travelStore.sceneOfNew germanBooking).value e =
        recordedColumns? licenceRoute (travelStore.lastRecord germanBooking licenceRoute.hops) ∧
      (travelStore.sceneOfNew germanBooking).value e = some "true" := by
  have hstart : ∃ start, travelModel.get? "trip.Bookings" = some start ∧
      travelModel.route start "guest.agent.licensed" = .ok licenceRoute :=
    ⟨_, rfl, by decide +kernel⟩
  obtain ⟨start, hget, hroute⟩ := hstart
  have hrow : (travelStore.sceneOfNew germanBooking).row .new = some germanBooking := rfl
  obtain ⟨e, he, hvalue⟩ :=
    pathValue_walks_records hroute (.inl rfl) (travelStore.sceneOfNew germanBooking) hrow
  refine ⟨start, e, hget, hroute, rfl, hrow, he, hvalue, ?_⟩
  rw [hvalue]
  decide +kernel

end ChangeTracking.Firing
