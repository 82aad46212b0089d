import ChangeTracking.Proofs.Firing.Transitions
import ChangeTracking.Proofs.Plan.Success
import ChangeTracking.Proofs.Tracking.Attributes

/-!
# One record per attribute

A set has one column for each tracked element of its entity, under the name of the element, and an
invocation emits at most one record for each column.  No check of a model keeps two elements of an
entity from having the same name, and the directives of an element are looked up by its name.  So
the main statement says when the names of the columns differ: exactly if no two tracked elements
share a name; and only then is no attribute recorded twice.
-/

namespace ChangeTracking.Tracking

open Schema (Element Entity Model)

variable {m : Model} {settings : Settings}

/-- The attributes of an entity stand for its tracked elements, in their order. -/
theorem describes_of_analyze {name : String} {a : Analysis} (h : analyze m name settings = .ok a) :
    ∃ db merged, EndsIn m name db ∧ mergeDirectives m db = .ok merged ∧
      List.Forall₂ Describes (db.elements.filter merged.tracks) a.descriptor.attributes := by
  obtain ⟨requested, db, merged, findings, _, _, hrequested, hdb, hmerged, hfindings, -,
    hdescriptor⟩ := steps_of_analyze h
  refine ⟨db, merged, ⟨requested, hrequested, hdb⟩, hmerged, ?_⟩
  rw [hdescriptor]
  exact describes_findings (examined_of_mapM hfindings)

theorem names_of_describes {elements : List Element} {attributes : List Attribute}
    (h : List.Forall₂ Describes elements attributes) :
    attributes.map (·.name) = elements.map (·.name) := by
  induction h with
  | nil => rfl
  | cons hdescribes _ ih => rw [List.map_cons, List.map_cons, hdescribes.name_eq, ih]

end ChangeTracking.Tracking

namespace ChangeTracking.Firing

open Plan (Operation TrackedColumn TriggerSet attributeValue planAll planCollection planEntity)
open Schema (Model)
open Tracking (Analysis Descriptor EndsIn analyze mergeDirectives)

/-! ## Names of columns and records -/

/-- The names of the columns of a set, in their order. -/
def columnNames (set : TriggerSet) : List String := set.columns.map (·.name)

/-- The attributes that an invocation records, in the order of its records. -/
def recordedNames (set : TriggerSet) (op : Operation) (old new : Option Row) (store : Store)
    (skips : Skip.Session) : List String :=
  (fire set op old new store skips).records.map (·.attributeName)

theorem recordedNames_eq (set : TriggerSet) (op : Operation) (old new : Option Row) (store : Store)
    (skips : Skip.Session) :
    recordedNames set op old new store skips =
      (emittedColumns set op old new store skips).map (·.name) := by
  rw [recordedNames, records_fire, List.map_map]
  rfl

/-- What is recorded are columns of the set, each at most once and in their order. -/
theorem sublist_recordedNames (set : TriggerSet) (op : Operation) (old new : Option Row)
    (store : Store) (skips : Skip.Session) :
    (recordedNames set op old new store skips).Sublist (columnNames set) := by
  rw [recordedNames_eq]
  refine List.Sublist.map _ ?_
  unfold emittedColumns
  split
  · exact List.filter_sublist
  · exact List.nil_sublist _

theorem nodup_recordedNames {set : TriggerSet} (h : (columnNames set).Nodup) (op : Operation)
    (old new : Option Row) (store : Store) (skips : Skip.Session) :
    (recordedNames set op old new store skips).Nodup :=
  h.sublist (sublist_recordedNames set op old new store skips)

variable {m : Model} {d : Descriptor} {settings : Settings} {set : TriggerSet}

theorem columnNames_of_planEntity (h : planEntity m d settings = .ok (some set)) :
    columnNames set = d.attributes.map (·.name) := by
  obtain ⟨entity, -, hcolumns⟩ := Plan.columns_of_planEntity h
  rw [columnNames, hcolumns, List.map_map]
  rfl

theorem columnNames_of_planCollection {c : Tracking.Collection}
    (h : planCollection m d settings c = .ok set) : columnNames set = [c.element] := by
  obtain ⟨column, hcolumns, hname, -⟩ := Plan.column_of_planCollection h
  rw [columnNames, hcolumns, List.map_singleton, hname]

/-! ## A row in which everything is there -/

/-- The row that has an empty text in each of the columns. -/
def Row.blank (columns : List String) : Row := ⟨columns.map fun column => (column, "")⟩

theorem Row.get?_blank {columns : List String} {column : String} (h : column ∈ columns) :
    (Row.blank columns).get? column = some "" := by
  induction columns with
  | nil => cases h
  | cons first rest ih =>
      rw [Row.get?, Row.blank, List.map_cons, List.lookup_cons]
      by_cases hfirst : column = first
      · rw [beq_iff_eq.mpr hfirst]
      · rw [beq_eq_false_iff_ne.mpr hfirst]
        exact ih ((List.mem_cons.mp h).resolve_left hfirst)

/-- The columns that decide whether the attributes of an entity changed. -/
def watchedColumns (d : Descriptor) : List String := d.attributes.flatMap (·.watched)

/-- Where all watched columns are there, every attribute has a value. -/
theorem isSome_valueOver_blank {a : Tracking.Attribute} (ha : a ∈ d.attributes) :
    (Store.valueOver {} (some (Row.blank (watchedColumns d))) (attributeValue a)).isSome = true := by
  rw [Option.isSome_iff_ne_none, ne_eq, valueOver_attributeValue]
  rintro ⟨column, hcolumn, hmissing⟩
  have hwatched : column ∈ watchedColumns d := List.mem_flatMap.mpr ⟨a, ha, hcolumn⟩
  rw [Row.get?_blank hwatched] at hmissing
  cases hmissing

/-- The create of a row that has all watched columns records every column of the set. -/
theorem recordedNames_of_blank (h : planEntity m d settings = .ok (some set))
    (hcreates : settings.ignoreCreates = false) :
    recordedNames set .create none (some (Row.blank (watchedColumns d))) {} {} =
      columnNames set := by
  obtain ⟨entity, -, hcolumns⟩ := Plan.columns_of_planEntity h
  have henabled := Plan.isEnabled_create (Plan.operations_of_planEntity h) hcreates
  have hflags : isSuppressed set {} = false :=
    (isSuppressed_eq_false_iff set {}).mpr fun _ _ => rfl
  -- No flag is set, so that a column is left out only for want of a value.
  have hpresent : presentColumns
      (Scene.of .create none (some (Row.blank (watchedColumns d))) {} {}) set .create =
        set.columns := by
    rw [presentColumns, List.filter_eq_self, hcolumns, List.forall_mem_map]
    intro a ha
    have honSubject := Plan.onSubject_attributeColumn m entity a
    rw [Scene.value_bind_of_onRow _ _ honSubject.value, Bool.and_eq_true]
    exact ⟨isSome_valueOver_blank ha, rfl⟩
  rw [recordedNames_eq, emittedColumns, henabled, hflags,
    recordedColumns_eq_presentColumns set .create _ (by decide), hpresent]
  rfl

/-! ## Attributes that are recorded twice -/

/-- Whatever was analyzed is planned.  The columns of an entity's own set have different names
exactly if no two of its tracked elements share a name, and the set of a collection has a single
column.  Where the names differ, no invocation records an attribute twice; where they do not, a
create does. -/
theorem nodup_columnNames_iff {name : String} {a : Analysis}
    (h : analyze m name settings = .ok a) (settings' : Settings) :
    ∃ db merged sets, EndsIn m name db ∧ mergeDirectives m db = .ok merged ∧
      planAll m a.descriptor settings' = .ok sets ∧
      ∀ set ∈ sets,
        ((columnNames set).Nodup ↔
          (set.collection = none → ((db.elements.filter merged.tracks).map (·.name)).Nodup)) ∧
        ((columnNames set).Nodup →
          ∀ op old new store skips, (recordedNames set op old new store skips).Nodup) ∧
        (¬ (columnNames set).Nodup → settings'.ignoreCreates = false →
          ∃ row, ¬ (recordedNames set .create none (some row) {} {}).Nodup) := by
  obtain ⟨db, merged, hends, hmerged, hdescribes⟩ := Tracking.describes_of_analyze h
  obtain ⟨sets, hsets⟩ := Plan.exists_planAll h settings'
  refine ⟨db, merged, sets, hends, hmerged, hsets, fun set hset => ?_⟩
  rcases Plan.mem_planAll hsets hset with hown | ⟨c, -, hcollection⟩
  · have hnames : columnNames set = (db.elements.filter merged.tracks).map (·.name) := by
      rw [columnNames_of_planEntity hown, Tracking.names_of_describes hdescribes]
    have hnone := (Plan.table_of_planEntity hown).2.2.1
    refine ⟨?_, nodup_recordedNames, fun htwice hcreates =>
      ⟨Row.blank (watchedColumns a.descriptor), ?_⟩⟩
    · rw [hnames]
      exact ⟨fun hnodup _ => hnodup, fun hnodup => hnodup hnone⟩
    · rw [recordedNames_of_blank hown hcreates]
      exact htwice
  -- The single column of a collection shares its name with no other.
  · have hnodup : (columnNames set).Nodup := by
      rw [columnNames_of_planCollection hcollection]
      exact List.nodup_singleton _
    obtain ⟨_, -, -, hsome, -⟩ := Plan.table_of_planCollection hcollection
    refine ⟨⟨fun _ hnone => ?_, fun _ => hnodup⟩, nodup_recordedNames,
      fun htwice => absurd hnodup htwice⟩
    cases hsome.symm.trans hnone

/-- The title, the assignee and the parent of a ticket are recorded once each, like its notes. -/
theorem nodup_columnNames_tickets : ∃ a db merged sets,
    analyze Tracking.Tickets.model "Desk.Tickets" {} = .ok a ∧
      EndsIn Tracking.Tickets.model "Desk.Tickets" db ∧
      mergeDirectives Tracking.Tickets.model db = .ok merged ∧
      planAll Tracking.Tickets.model a.descriptor {} = .ok sets ∧
      sets.map columnNames = [["title", "assignee", "parent"], ["notes"]] ∧
      ((db.elements.filter merged.tracks).map (·.name)).Nodup ∧
      ∀ set ∈ sets, ∀ op old new store skips, (recordedNames set op old new store skips).Nodup := by
  have hplanned : (analyze Tracking.Tickets.model "Desk.Tickets" {} >>= fun a =>
      (planAll Tracking.Tickets.model a.descriptor {}).map fun sets =>
        sets.map fun set => (set.collection, columnNames set)) =
      .ok [(none, ["title", "assignee", "parent"]), (some "notes", ["notes"])] := by
    decide +kernel
  obtain ⟨a, ha, hplanned⟩ := bind_eq_ok.mp hplanned
  obtain ⟨planned, hsets, hplanned⟩ := map_eq_ok.mp hplanned
  obtain ⟨own, rest, rfl, hown, hrest⟩ := List.map_eq_cons_iff.mp hplanned
  obtain ⟨notes, rfl, hnotes⟩ := List.map_eq_singleton_iff.mp hrest
  obtain ⟨hnone, hnames⟩ := Prod.mk.inj hown
  obtain ⟨-, hnotes⟩ := Prod.mk.inj hnotes
  have hcolumns : [own, notes].map columnNames = [["title", "assignee", "parent"], ["notes"]] := by
    rw [List.map_cons, List.map_singleton, hnames, hnotes]
  have honce : ∀ set ∈ [own, notes], (columnNames set).Nodup := by
    rw [← List.forall_mem_map (P := List.Nodup), hcolumns]
    decide
  obtain ⟨db, merged, sets, hends, hmerged, hplan, hnodup⟩ := nodup_columnNames_iff ha {}
  obtain rfl : [own, notes] = sets := Except.ok.inj (hsets.symm.trans hplan)
  have hown : own ∈ [own, notes] := List.mem_cons_self
  exact ⟨a, db, merged, [own, notes], ha, hends, hmerged, hsets, hcolumns,
    (hnodup own hown).1.mp (honce own hown) hnone,
    fun set hset => (hnodup set hset).2.1 (honce set hset)⟩

/-! ### Orders that have their status twice -/

namespace RestatedOrders

/-- The status is annotated where it is declared first, and is declared again as a number. -/
def orders : Schema.Entity where
  name := "shop.Orders"
  elements := [
    { name := "ID", isKey := true },
    { name := "status", directive := some (.marker true) },
    { name := "status", type := "cds.Integer" }]

def model : Model where
  entities := NameMap.ofList [(orders.name, orders)]
  checked := by decide

/-- The only row of a created order. -/
def created : Row := ⟨[("ID", "1"), ("status", "new")]⟩

/-- The one status that a row has is recorded twice. -/
theorem status_recorded_twice : ∃ a set, analyze model "shop.Orders" {} = .ok a ∧
    planAll model a.descriptor {} = .ok [set] ∧
    columnNames set = ["status", "status"] ∧ ¬ (columnNames set).Nodup ∧
    recordedNames set .create none (some created) {} {} = ["status", "status"] ∧
    ¬ (recordedNames set .create none (some created) {} {}).Nodup := by
  have hnames : (analyze model "shop.Orders" {} >>= fun a =>
      (planAll model a.descriptor {}).map fun sets => sets.map fun set =>
        (columnNames set, recordedNames set .create none (some created) {} {})) =
      .ok [(["status", "status"], ["status", "status"])] := by
    decide +kernel
  obtain ⟨a, ha, hplanned⟩ := bind_eq_ok.mp hnames
  obtain ⟨sets, hsets, hplanned⟩ := map_eq_ok.mp hplanned
  obtain ⟨set, rfl, hset⟩ := List.map_eq_singleton_iff.mp hplanned
  obtain ⟨hcolumns, hrecorded⟩ := Prod.mk.inj hset
  have htwice : ¬ ["status", "status"].Nodup := by decide
  exact ⟨a, set, ha, hsets, hcolumns, hcolumns ▸ htwice, hrecorded, hrecorded ▸ htwice⟩

end RestatedOrders

end ChangeTracking.Firing
