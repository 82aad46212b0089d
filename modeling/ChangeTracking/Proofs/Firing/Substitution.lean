import ChangeTracking.Firing.History
import ChangeTracking.Plan.Origin
import ChangeTracking.Proofs.Firing.Binding
import Mathlib.Data.List.Basic

/-!
# Binding is substitution

Plans are written once, over the row to be bound, and bound for each operation.  The main
statement is that nothing is lost by this: what is planned over the row to be bound and then
bound to a row is what would have been planned over that row at once, and an expression that is
bound says of the row what it said of the subject.
-/

namespace ChangeTracking.Plan

open Firing (boundRole)
open Schema (Entity Hop Model Route)
open Tracking (Attribute IdentityField)

variable {row : RowRole}

/-! ## Rows that an expression does not read -/

/-- The expression itself is no column of the row. -/
def IsNotOn (row : RowRole) : Expr → Prop
  | .column role _ => role ≠ row
  | _ => True

instance (row : RowRole) : DecidablePred (IsNotOn row)
  | .column role _ => inferInstanceAs (Decidable (¬ role = row))
  | .null | .text _ | .variable _ | .locale | .lookup .. | .keyJoin _ | .listJoin _ | .firstOf _
  | .encoded .. => instDecidableTrue

namespace Expr

/-- At no depth does the expression read the row. -/
def Avoids (row : RowRole) (e : Expr) : Prop := e.Everywhere (IsNotOn row)

instance (row : RowRole) : DecidablePred (Avoids row) :=
  fun e => inferInstanceAs (Decidable (e.Everywhere (IsNotOn row)))

@[simp] theorem bind_column (role : RowRole) (name : String) :
    (column role name).bind row = .column (boundRole row role) name := by
  cases role <;> rfl

/-- What is bound to a concrete row has nothing left to be bound. -/
theorem avoids_bind (hrow : row ≠ .subject) (e : Expr) : (e.bind row).Avoids .subject := by
  have hall : e.Everywhere fun _ => True := fun _ _ => trivial
  refine hall.bind fun t _ => ?_
  cases t with
  | column role name =>
      rw [bind_column]
      cases role with
      | subject => exact hrow
      | _ => exact fun h => nomatch h
  | _ => trivial

theorem bindAll_eq_self {parts : List Expr} (h : ∀ e ∈ parts, e.bind row = e) :
    bindAll row parts = parts := by
  rw [bindAll_eq_map, List.map_congr_left h, List.map_id']

/-- Where nothing is to be bound, binding changes nothing. -/
theorem bind_of_avoids {e : Expr} (h : e.Avoids .subject) : e.bind row = e := by
  unfold Avoids at h
  -- Binding changes nothing but columns of the subject, and the expression reads none.
  induction e using Expr.inductOn with
  | null => rfl
  | text value => rfl
  | column role name =>
      have hrole : role ≠ .subject := h.self
      cases role with
      | subject => exact absurd rfl hrole
      | _ => rfl
  | ofLocal name => rfl
  | locale => rfl
  | lookup entity name filters ih =>
      rw [everywhere_lookup] at h
      have hfilters : filters.map (fun f => (f.1, f.2.bind row)) = filters.map id :=
        List.map_congr_left fun f hf => by rw [ih f hf (h.2 f hf), id]
      rw [bind, bindFilters_eq_map, hfilters, List.map_id]
  | keyJoin parts ih =>
      rw [everywhere_keyJoin] at h
      rw [bind, bindAll_eq_self fun e he => ih e he (h.2 e he)]
  | listJoin parts ih =>
      rw [everywhere_listJoin] at h
      rw [bind, bindAll_eq_self fun e he => ih e he (h.2 e he)]
  | firstOf parts ih =>
      rw [everywhere_firstOf] at h
      rw [bind, bindAll_eq_self fun e he => ih e he (h.2 e he)]
  | encoded rule inner ih =>
      rw [everywhere_encoded] at h
      rw [bind, ih h.2]

/-! ## What is known of an expression without its value -/

theorem anyLookup_bindAll {parts : List Expr}
    (h : ∀ e ∈ parts, (e.bind row).hasLookup = e.hasLookup) :
    anyLookup (bindAll row parts) = anyLookup parts := by
  induction parts with
  | nil => rfl
  | cons e parts ih =>
      obtain ⟨hfirst, hparts⟩ := List.forall_mem_cons.mp h
      rw [bindAll, anyLookup, anyLookup, hfirst, ih hparts]

/-- Binding neither adds nor removes a look-up. -/
theorem hasLookup_bind (row : RowRole) (e : Expr) : (e.bind row).hasLookup = e.hasLookup := by
  induction e using Expr.inductOn with
  | column role name =>
      rw [bind_column]
      rfl
  | keyJoin parts ih => rw [bind, hasLookup, hasLookup, anyLookup_bindAll ih]
  | listJoin parts ih => rw [bind, hasLookup, hasLookup, anyLookup_bindAll ih]
  | firstOf parts ih => rw [bind, hasLookup, hasLookup, anyLookup_bindAll ih]
  | encoded rule inner ih => rw [bind, hasLookup, hasLookup, ih]
  | _ => rfl

/-- The column, where the row to be bound is `row`. -/
def boundColumn (row : RowRole) (c : RowRole × String) : RowRole × String :=
  (boundRole row c.1, c.2)

theorem allNullColumns_bindAll {parts : List Expr}
    (h : ∀ e ∈ parts, (e.bind row).nullColumns = e.nullColumns.map (List.map (boundColumn row))) :
    allNullColumns (bindAll row parts) =
      (allNullColumns parts).map (List.map (boundColumn row)) := by
  induction parts with
  | nil => rfl
  | cons e parts ih =>
      obtain ⟨hfirst, hparts⟩ := List.forall_mem_cons.mp h
      rw [bindAll, allNullColumns, allNullColumns, hfirst, ih hparts]
      cases e.nullColumns <;> cases allNullColumns parts <;> simp

/-- The columns that decide whether a value is there are bound one by one. -/
theorem nullColumns_bind (row : RowRole) (e : Expr) :
    (e.bind row).nullColumns = e.nullColumns.map (List.map (boundColumn row)) := by
  induction e using Expr.inductOn with
  | column role name =>
      rw [bind_column]
      rfl
  | keyJoin parts ih => rw [bind, nullColumns, nullColumns, allNullColumns_bindAll ih]
  | encoded rule inner ih => rw [bind, nullColumns, nullColumns, ih]
  | _ => rfl

end Expr

/-! ## Origins -/

/-- The same record, where the row to be bound is `row`. -/
def Origin.bind (row : RowRole) : Origin → Origin
  | .row role => .row (boundRole row role)
  | .keyed entity filters => .keyed entity (filters.map fun f => (f.1, f.2.bind row))

namespace Origin

theorem bind_read (origin : Origin) (column : String) :
    (origin.read column).bind row = (origin.bind row).read column := by
  cases origin with
  | row role => exact Expr.bind_column role column
  | keyed entity filters => rw [read, Expr.bind, Expr.bindFilters_eq_map]; rfl

theorem bind_readBack (origin : Origin) (entity : String) (key : List String) :
    (origin.readBack entity key).bind row = (origin.bind row).readBack entity key := by
  cases origin with
  | row role => simp [readBack, bind, Function.comp_def]
  | keyed entity filters => rfl

theorem bind_hop (origin : Origin) (next : Hop) :
    (origin.hop next).bind row = (origin.bind row).hop next := by
  simp [hop, bind, bind_read, Function.comp_def]

theorem bind_along (origin : Origin) (hops : List Hop) :
    (origin.along hops).bind row = (origin.bind row).along hops := by
  unfold along
  induction hops generalizing origin with
  | nil => rfl
  | cons next hops ih => rw [List.foldl_cons, List.foldl_cons, ih, bind_hop]

end Origin

/-! ## Values of paths -/

section Planning

variable (m : Model) (start : Entity) (origin : Origin)

theorem bind_translation (entity texts column : String) :
    (translation m entity texts column origin).bind row =
      translation m entity texts column (origin.bind row) := by
  unfold translation
  rw [Expr.bind, Expr.bindFilters_eq_map, List.map_append]
  -- The filters of a record that was looked up are bound with it; the key of a row is read anew.
  cases origin with
  | keyed holder filters => rfl
  | row role => cases m.get? entity <;> simp [Origin.bind, Expr.bind, Function.comp_def]

theorem bind_terminal (route : Route) (column : String) :
    (terminal m route origin column).bind row = terminal m route (origin.bind row) column := by
  unfold terminal
  split
  · rw [Expr.bind, Expr.bindAll, Expr.bindAll, Expr.bindAll, bind_translation, Origin.bind_read]
  · exact Origin.bind_read origin column

theorem bind_routeValue (route : Route) :
    (routeValue m route origin).bind row = routeValue m route (origin.bind row) := by
  by_cases hcolumn : ∃ column, route.columns = [column]
  · obtain ⟨column, hcolumn⟩ := hcolumn
    rw [routeValue_of_column hcolumn, routeValue_of_column hcolumn, encode, Expr.bind,
      bind_terminal, Origin.bind_along, encode]
  · have hkey : ∀ column, route.columns ≠ [column] := fun column h => hcolumn ⟨column, h⟩
    rw [routeValue_of_key hkey, routeValue_of_key hkey, Expr.bind, Expr.bindAll_eq_map,
      List.map_map, ← Origin.bind_along]
    simp only [Function.comp_def, rawText, Expr.bind, Origin.bind_read]

/-- Whether a path leads somewhere does not depend on where its first record is read. -/
theorem bind_pathValue (path : String) :
    (pathValue m start path origin).map (Expr.bind row) =
      pathValue m start path (origin.bind row) := by
  unfold pathValue
  cases m.route start path with
  | error deadEnd => rfl
  | ok route => exact congrArg Except.ok (bind_routeValue m origin route)

/-! ## Identifiers, labels and keys -/

theorem bind_phrase (paths : List (String × Origin)) :
    (phrase m start paths).map (Expr.bind row) =
      phrase m start (paths.map fun p => (p.1, p.2.bind row)) := by
  have hvalues : (paths.map fun p => (p.1, p.2.bind row)).filterMap
      (fun p => (pathValue m start p.1 p.2).toOption) =
        (paths.filterMap fun p => (pathValue m start p.1 p.2).toOption).map (Expr.bind row) := by
    rw [List.filterMap_map, List.map_filterMap]
    refine List.filterMap_congr fun p _ => ?_
    rw [Function.comp_apply, ← bind_pathValue]
    cases pathValue m start p.1 p.2 <;> rfl
  unfold phrase
  rw [hvalues]
  cases paths.filterMap fun p => (pathValue m start p.1 p.2).toOption with
  | nil => rfl
  | cons value values =>
      simp [Expr.bind, Expr.bindAll, Expr.bindAll_eq_map]

theorem bind_fieldOrigin (key : List String) (field : IdentityField) :
    (fieldOrigin m start key origin field).bind row =
      fieldOrigin m start key (origin.bind row) field := by
  unfold fieldOrigin
  cases m.route start field.path with
  | error deadEnd => rfl
  | ok route =>
      dsimp only
      split
      · exact Origin.bind_readBack origin start.name key
      · rfl

theorem bind_identifier (fields : List IdentityField) (key : List String) :
    (identifier m start fields key origin).map (Expr.bind row) =
      identifier m start fields key (origin.bind row) := by
  unfold identifier
  rw [bind_phrase, List.map_map]
  simp only [Function.comp_def, bind_fieldOrigin]

theorem bind_label (paths : List String) :
    (label m start paths origin).map (Expr.bind row) =
      label m start paths (origin.bind row) := by
  unfold label
  rw [bind_phrase, List.map_map]
  rfl

theorem bind_encodeKey (columns : List String) :
    (encodeKey columns .subject).bind row = encodeKey columns row := by
  unfold encodeKey
  match columns with
  | [] => rfl
  | [column] => rfl
  | first :: second :: rest =>
      simp [joinedKey, Expr.bind, Expr.bindAll_eq_map, rawText, Function.comp_def]

end Planning

/-- What is planned over the row to be bound and then bound to the row is what is planned over the
row at once: the value of a path, which is there in the same cases, the identifier of a record, the
label of an attribute and the key. -/
structure PlansAlike (m : Model) (start : Entity) (row : RowRole) : Prop where
  path : ∀ path, (pathValue m start path (.row .subject)).map (Expr.bind row) =
    pathValue m start path (.row row)
  identifier : ∀ fields key, (identifier m start fields key (.row .subject)).map (Expr.bind row) =
    identifier m start fields key (.row row)
  label : ∀ a : Attribute, (label m start a.labelPaths (.row .subject)).map (Expr.bind row) =
    label m start a.labelPaths (.row row)
  key : ∀ columns, (encodeKey columns .subject).bind row = encodeKey columns row

theorem plansAlike (m : Model) (start : Entity) (row : RowRole) : PlansAlike m start row where
  path path := bind_pathValue m start (.row .subject) path
  identifier fields key := bind_identifier m start (.row .subject) fields key
  label a := bind_label m start (.row .subject) a.labelPaths
  key columns := bind_encodeKey columns

end ChangeTracking.Plan

namespace ChangeTracking.Firing

open Plan (Expr PlansAlike RowRole)

/-! ## Values of bound expressions -/

/-- What is seen where the row is what the operation is about. -/
def Scene.about (s : Scene) (row : RowRole) : Scene := { s with subject := s.row row }

/-- An expression that is bound to a row has the value that it has unbound where the row is the
subject. -/
theorem Scene.value_bind_of_avoids (s : Scene) (row : RowRole) {e : Expr} (h : e.Avoids .record) :
    s.value (e.bind row) = (s.about row).value e := by
  refine Scene.value_bind e rfl (h.mono fun t ht => ?_)
  cases t with
  | column role name =>
      cases role with
      | record => exact absurd rfl ht
      | _ => rfl
  | _ => trivial

/-- Binding the expression to the row is substitution: a concrete row leaves nothing to be bound,
so that binding once more, to whatever row, changes nothing; the look-ups stay, the columns that
decide whether a value is there are bound one by one, and the bound expression says of the row what
the expression says of the subject. -/
structure IsSubstitution (row : RowRole) (e : Expr) : Prop where
  avoids : row ≠ .subject → (e.bind row).Avoids .subject
  bind_bind : row ≠ .subject → ∀ row', (e.bind row).bind row' = e.bind row
  hasLookup : (e.bind row).hasLookup = e.hasLookup
  nullColumns : (e.bind row).nullColumns = e.nullColumns.map (List.map (Expr.boundColumn row))
  value : e.Avoids .record → ∀ s : Scene, s.value (e.bind row) = (s.about row).value e

/-- Planning commutes with binding, for every model, entity and row, and binding is substitution in
every expression. -/
theorem bind_is_substitution (m : Schema.Model) (start : Schema.Entity) (row : RowRole) :
    PlansAlike m start row ∧ ∀ e, IsSubstitution row e := by
  refine ⟨Plan.plansAlike m start row, fun e => ?_⟩
  constructor
  case avoids => exact fun hrow => Expr.avoids_bind hrow e
  case bind_bind => exact fun hrow _ => Expr.bind_of_avoids (Expr.avoids_bind hrow e)
  case hasLookup => exact Expr.hasLookup_bind row e
  case nullColumns => exact Expr.nullColumns_bind row e
  case value => exact fun havoids s => s.value_bind_of_avoids row havoids

/-! ### Exhibits -/

namespace Exhibits

/-- Exhibits with a translated title and an estimate that the database makes, in rooms. -/
def exhibits : Schema.Entity where
  name := "museum.Exhibits"
  elements := [
    { name := "hall", isKey := true }, { name := "number", isKey := true },
    { name := "title", isLocalized := true }, { name := "estimate", isComputed := true },
    { name := "room", type := "cds.Association"
      association := some { kind := .reference, target := "museum.Rooms", keys := ["wing", "floor"] } }]
  texts := some "museum.Exhibits.texts"

def rooms : Schema.Entity where
  name := "museum.Rooms"
  elements := [
    { name := "wing", isKey := true }, { name := "floor", isKey := true }, { name := "name" }]

def model : Schema.Model where
  entities := NameMap.ofList ([exhibits, rooms].map fun entity => (entity.name, entity))
  checked := by decide

/-- The caption of an exhibit, over the row to be bound. -/
def caption : Option Expr :=
  Plan.identifier model exhibits
    [⟨"title", true⟩, ⟨"estimate", false⟩, ⟨"room.name", true⟩, ⟨"room", true⟩] ["hall", "number"]
    (.row .subject)

/-- An exhibit moves from one room to another, and gets another number. -/
def moving : Scene :=
  Scene.of .update
    (some ⟨[("hall", "A"), ("number", "1"), ("title", "Lamp"), ("room_wing", "W"),
      ("room_floor", "1")]⟩)
    (some ⟨[("hall", "A"), ("number", "2"), ("title", "Lamp"), ("room_wing", "E"),
      ("room_floor", "2")]⟩)
    { rows := [
        ("museum.Exhibits", ⟨[("hall", "A"), ("number", "2"), ("estimate", "90")]⟩),
        ("museum.Exhibits.texts",
          ⟨[("hall", "A"), ("number", "1"), ("locale", "de"), ("title", "Lampe")]⟩),
        ("museum.Rooms", ⟨[("wing", "W"), ("floor", "1"), ("name", "Foyer")]⟩)]
      locale := some "de" }
    {}

/-- Of the old row the title is translated and the room has a name, of the new row the estimate is
there. -/
theorem bind_caption : ∃ e, caption = some e ∧ e.hasLookup = true ∧
    moving.value (e.bind .old) = some "Lampe, Foyer, W||1" ∧
    moving.value (e.bind .new) = some "Lamp, 90, E||2" ∧
    RowRole.old ≠ .subject ∧ e.Avoids .record ∧
    PlansAlike model exhibits .old ∧ (e.bind .old).Avoids .subject ∧
    (e.bind .old).bind .new = e.bind .old ∧
    moving.value (e.bind .old) = (moving.about .old).value e := by
  have hvalues : caption.map (fun e => (e.hasLookup, decide (e.Avoids .record),
      moving.value (e.bind .old), moving.value (e.bind .new))) =
        some (true, true, some "Lampe, Foyer, W||1", some "Lamp, 90, E||2") := by
    decide +kernel
  obtain ⟨e, he, hvalues⟩ := Option.map_eq_some_iff.mp hvalues
  obtain ⟨hlookup, havoids, hold, hnew⟩ : e.hasLookup = true ∧ e.Avoids .record ∧
      moving.value (e.bind .old) = some "Lampe, Foyer, W||1" ∧
      moving.value (e.bind .new) = some "Lamp, 90, E||2" := by
    simpa using hvalues
  have hrow : RowRole.old ≠ .subject := by decide
  obtain ⟨hplans, hbinds⟩ := bind_is_substitution model exhibits .old
  exact ⟨e, he, hlookup, hold, hnew, hrow, havoids, hplans, (hbinds e).avoids hrow,
    (hbinds e).bind_bind hrow .new, (hbinds e).value havoids moving⟩

end Exhibits

end ChangeTracking.Firing
