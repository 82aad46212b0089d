import ChangeTracking.Proofs.Firing.Visibility
import ChangeTracking.Proofs.Plan.Owners
import ChangeTracking.Proofs.Plan.Success
import Mathlib.Control.Monad.Basic
import Mathlib.Data.List.Forall2

/-!
# Personal data

Analysis never tracks an element that is personal data.  The paths by which records are
labelled and identified, the links of children and the conditions of associations are not
looked at in this way: what they name is read, whatever it is.  Where none of them reads
personal data, an invocation does not depend on it at all; where one does, the personal data
is recorded.
-/

namespace ChangeTracking.Firing

open Plan (Place Policy TriggerSet planAll)
open Schema (Entity Model)
open Tracking (Analysis Collection Descriptor analyze keyColumns)

/-! ## Personal columns -/

/-- Elements keep their values in the column, and all of them are personal data and no keys. -/
def IsPersonalColumn (entity : Entity) (column : String) : Prop :=
  (∃ element ∈ entity.elements, column ∈ keyColumns element) ∧
    ∀ element ∈ entity.elements, column ∈ keyColumns element →
      element.isPersonal = true ∧ element.isKey = false

/-- The column of the table holds personal data: by the entity of this name or, for a table of
translations that is no entity of the model, by an entity that is translated there. -/
def HoldsPersonalData (m : Model) (table column : String) : Prop :=
  match m.get? table with
  | some entity => IsPersonalColumn entity column
  | none => ∃ entity ∈ m.all, entity.texts = some table ∧ IsPersonalColumn entity column

instance (entity : Entity) : DecidablePred (IsPersonalColumn entity) := fun column =>
  inferInstanceAs (Decidable ((∃ element ∈ entity.elements, column ∈ keyColumns element) ∧
    ∀ element ∈ entity.elements, column ∈ keyColumns element →
      element.isPersonal = true ∧ element.isKey = false))

instance (m : Model) (table : String) : DecidablePred (HoldsPersonalData m table) := fun column =>
  match h : m.get? table with
  | some entity => decidable_of_iff (IsPersonalColumn entity column) (by
      rw [HoldsPersonalData, h])
  | none => decidable_of_iff
      (∃ entity ∈ m.all, entity.texts = some table ∧ IsPersonalColumn entity column) (by
      rw [HoldsPersonalData, h])

/-- The rows of a table differ in personal data alone. -/
def SameButPersonal (m : Model) (table : String) (row row' : Option Row) : Prop :=
  ∀ column, ¬ HoldsPersonalData m table column →
    row.bind (·.get? column) = row'.bind (·.get? column)

/-- The stores hold the same rows, except for personal data. -/
structure StoresSameButPersonal (m : Model) (store store' : Store) : Prop where
  locale : store.locale = store'.locale
  rows : List.Forall₂ (fun entry entry' => entry.1 = entry'.1 ∧
    SameButPersonal m entry.1 (some entry.2) (some entry'.2)) store.rows store'.rows

/-- The policy of an invocation on a table: it reads no personal data, and finds no record by
personal data. -/
def discretion (m : Model) (table : String) : Policy where
  onRow column := ¬ HoldsPersonalData m table column
  inTable entity found column :=
    (∀ name ∈ found, ¬ HoldsPersonalData m entity name) ∧ ¬ HoldsPersonalData m entity column
  emptyKeys := True

/-! ## Stores -/

section Stores

variable {m : Model} {store store' : Store} {table : String}

theorem rowsOf_sameButPersonal (h : StoresSameButPersonal m store store') (table : String) :
    List.Forall₂ (fun row row' => SameButPersonal m table (some row) (some row'))
      (store.rowsOf table) (store'.rowsOf table) := by
  obtain ⟨-, hrows⟩ := h
  unfold Store.rowsOf
  generalize store.rows = rows, store'.rows = rows' at hrows ⊢
  induction hrows with
  | nil => exact .nil
  | @cons entry entry' rows rows' hentry _ ih =>
      -- Entries in the same position are on the same table, so both are kept or neither.
      obtain ⟨hname, hsame⟩ := hentry
      rw [List.filter_cons, List.filter_cons, hname]
      split
      · rename_i htable
        rw [eq_of_beq htable] at hname
        rw [hname] at hsame
        exact .cons hsame ih
      · exact ih

theorem has_congr {row row' : Row} (h : SameButPersonal m table (some row) (some row'))
    {values : List (String × String)}
    (hvalues : ∀ name ∈ values.map Prod.fst, ¬ HoldsPersonalData m table name) :
    row.has values = row'.has values := by
  unfold Row.has
  rw [Bool.eq_iff_iff, List.all_eq_true, List.all_eq_true]
  refine forall_congr' fun v => forall_congr' fun hv => ?_
  have hget : row.get? v.1 = row'.get? v.1 := h v.1 (hvalues v.1 (List.mem_map_of_mem hv))
  rw [hget]

theorem find?_sameButPersonal {rows rows' : List Row}
    (h : List.Forall₂ (fun row row' => SameButPersonal m table (some row) (some row')) rows rows')
    {values : List (String × String)}
    (hvalues : ∀ name ∈ values.map Prod.fst, ¬ HoldsPersonalData m table name) :
    SameButPersonal m table (rows.find? (·.has values)) (rows'.find? (·.has values)) := by
  induction h with
  | nil => exact fun _ _ => rfl
  | @cons row row' _ _ hrow _ ih =>
      rw [List.find?_cons, List.find?_cons, has_congr hrow hvalues]
      split
      · exact hrow
      · exact ih

/-- Through the policy of discretion, stores that differ in personal data look the same. -/
theorem sameStore_discretion (h : StoresSameButPersonal m store store') (table : String) :
    SameStore (discretion m table) store store' where
  locale := h.locale
  find entity column _ hallows :=
    find?_sameButPersonal (rowsOf_sameButPersonal h entity) hallows.1 column hallows.2

end Stores

/-! ## Planned sets -/

/-- What analysis leaves unchecked of an entity's own set reads no personal data. -/
structure DiscreetOwn (m : Model) (d : Descriptor) (entity : Entity) : Prop where
  labels : ∀ a ∈ d.attributes, (discretion m d.entity).AllowsPaths m entity a.labelPaths
  terms : ∀ a ∈ d.attributes, ∀ term ∈ a.onTerms, ¬ HoldsPersonalData m d.entity term.source
  identity : (discretion m d.entity).AllowsFields m entity d.primaryKey .row d.identity
  owner : ∀ binding, d.binding = some binding → ∀ root, m.get? binding.root = some root →
    (discretion m d.entity).AllowsOwner m d.entity d.primaryKey binding.link root binding.identity

/-- What analysis leaves unchecked of the set of a collection reads no personal data. -/
structure DiscreetCollection (m : Model) (d : Descriptor) (c : Collection) (target : Entity) :
    Prop where
  identity : (discretion m target.name).AllowsFields m target c.targetKeys .row c.identity
  owner : ∀ link, c.link = some link → ∀ root, m.get? d.entity = some root →
    (discretion m target.name).AllowsOwner m target.name c.targetKeys link root d.identity

/-- The paths, links and conditions that the set is planned from read no personal data. -/
structure PlannedDiscreetly (m : Model) (d : Descriptor) (set : TriggerSet) : Prop where
  own : set.collection = none → ∀ entity, m.get? d.entity = some entity → DiscreetOwn m d entity
  collection : ∀ c ∈ d.collections, set.collection = some c.element →
    ∀ target, m.get? c.target = some target → DiscreetCollection m d c target

section Sets

variable {m : Model} {name : String} {settings : Settings} {a : Analysis}

theorem not_holdsPersonalData {entity : Entity} {table : String}
    (hget : m.get? table = some entity) {element : Schema.Element}
    (helement : element ∈ entity.elements)
    (hfree : element.isPersonal = false ∨ element.isKey = true) {column : String}
    (hcolumn : column ∈ keyColumns element) : ¬ HoldsPersonalData m table column := by
  rw [HoldsPersonalData, hget]
  rintro ⟨-, hall⟩
  obtain ⟨hpersonal, hkey⟩ := hall element helement hcolumn
  rcases hfree with hfree | hfree
  · rw [hpersonal] at hfree
    cases hfree
  · rw [hkey] at hfree
    cases hfree

/-- Keys are no personal data. -/
theorem not_holdsPersonalData_of_key {entity : Entity} {table : String}
    (hget : m.get? table = some entity) :
    ∀ column ∈ Tracking.primaryKey entity, ¬ HoldsPersonalData m table column := by
  intro column hcolumn
  obtain ⟨element, helement, hcolumn⟩ := List.mem_flatMap.mp hcolumn
  obtain ⟨helement, hkey⟩ := List.mem_filter.mp helement
  exact not_holdsPersonalData hget helement (.inr hkey) hcolumn

/-- What a tracked attribute is compared by is no personal data, apart from the condition of
an association. -/
theorem not_holdsPersonalData_of_watched (h : analyze m name settings = .ok a)
    {tracked : Tracking.Attribute} (htracked : tracked ∈ a.descriptor.attributes)
    (hterms : ∀ term ∈ tracked.onTerms, ¬ HoldsPersonalData m a.descriptor.entity term.source) :
    ∀ column ∈ tracked.watched, ¬ HoldsPersonalData m a.descriptor.entity column := by
  obtain ⟨db, element, hget, helement, hpersonal, has⟩ :=
    Tracking.trackedAs_of_mem_attributes h htracked
  intro column hcolumn
  cases has with
  | plain hassociation =>
      refine not_holdsPersonalData hget helement (.inl hpersonal) ?_
      rw [keyColumns, hassociation]
      exact hcolumn
  | @relation association paths hassociation _ =>
      rw [Tracking.watched_relationAttribute] at hcolumn
      -- An association without foreign keys is compared by the columns of its condition.
      split at hcolumn
      · rename_i hempty
        obtain ⟨term, hterm, rfl⟩ := List.mem_map.mp hcolumn
        apply hterms term
        show term ∈ if element.foreignKeyColumns.isEmpty then _ else _
        rw [if_pos hempty]
        exact hterm
      · refine not_holdsPersonalData hget helement (.inl hpersonal) ?_
        rw [keyColumns, hassociation]
        exact hcolumn

theorem discretion_own (h : analyze m name settings = .ok a) {entity : Entity}
    (hdiscreet : DiscreetOwn m a.descriptor entity) :
    (discretion m a.descriptor.entity).AllowsOwn m a.descriptor entity where
  key := by
    obtain ⟨db, _, hdb, -, -, hkey, -⟩ := Plan.database_of_analyze h
    rw [hkey]
    exact ⟨.inr trivial, not_holdsPersonalData_of_key hdb⟩
  identity := hdiscreet.identity
  owner := hdiscreet.owner
  watched := fun tracked htracked =>
    ⟨.inr trivial, not_holdsPersonalData_of_watched h htracked (hdiscreet.terms tracked htracked)⟩
  labels := hdiscreet.labels

theorem discretion_collection (h : analyze m name settings = .ok a) {c : Collection}
    (hc : c ∈ a.descriptor.collections) {target : Entity} (hget : m.get? c.target = some target)
    (hdiscreet : DiscreetCollection m a.descriptor c target) :
    (discretion m target.name).AllowsCollection m a.descriptor c target where
  key := by
    obtain ⟨_, _, -, -, _, _, hchild, -, rfl⟩ := Tracking.collectedAs_of_mem_collections h hc
    rw [hchild] at hget
    cases hget
    exact ⟨.inr trivial, not_holdsPersonalData_of_key hchild⟩
  identity := hdiscreet.identity
  owner := hdiscreet.owner

/-- A set that is planned discreetly reads its rows and other tables with discretion. -/
theorem allowsSet_discretion (h : analyze m name settings = .ok a) {settings' : Settings}
    {sets : List TriggerSet} (hplan : planAll m a.descriptor settings' = .ok sets)
    {set : TriggerSet} (hset : set ∈ sets) (hdiscreet : PlannedDiscreetly m a.descriptor set) :
    (discretion m set.entity).AllowsSet set := by
  rcases Plan.mem_planAll hplan hset with hown | ⟨c, hc, hcollection⟩
  · obtain ⟨-, hentity, hnone, -⟩ := Plan.table_of_planEntity hown
    rw [hentity]
    exact Policy.AllowsOwn.allowsSet
      (fun entity hget => discretion_own h (hdiscreet.own hnone entity hget)) hown
  · obtain ⟨target, htarget, hentity, hsome, -⟩ := Plan.table_of_planCollection hcollection
    have hget := Schema.Model.entity_eq_ok_iff.mp htarget
    rw [hentity]
    refine Policy.AllowsCollection.allowsSet (fun target' hget' => ?_) hcollection
    rw [hget] at hget'
    cases hget'
    exact discretion_collection h hc hget (hdiscreet.collection c hc hsome target hget)

end Sets

/-- An invocation of a set that is planned discreetly does not depend on personal data: where
its rows and the store differ in the values of elements that are personal data and no keys,
in whatever entity, the outcome is the same, for every operation and all skip scopes. -/
theorem fire_eq_of_plannedDiscreetly {m : Model} {name : String} {settings : Settings}
    {a : Analysis} (h : analyze m name settings = .ok a) {settings' : Settings}
    {sets : List TriggerSet} (hplan : planAll m a.descriptor settings' = .ok sets)
    {set : TriggerSet} (hset : set ∈ sets) (hdiscreet : PlannedDiscreetly m a.descriptor set)
    {old old' new new' : Option Row} {store store' : Store}
    (hold : SameButPersonal m set.entity old old') (hnew : SameButPersonal m set.entity new new')
    (hstore : StoresSameButPersonal m store store') (op : Plan.Operation) (skips : Skip.Session) :
    fire set op old new store skips = fire set op old' new' store' skips :=
  fire_congr (Plan.onSubject_of_planAll hplan hset) (allowsSet_discretion h hplan hset hdiscreet)
    hold hnew (sameStore_discretion hstore set.entity) op skips

/-! ## Staff -/

/-- Employees, identified by the given paths, and their departments. -/
def staffEntities (paths : List String) : NameMap Entity :=
  NameMap.ofList [
    ("hr.Employees", {
      name := "hr.Employees"
      elements := [
        { name := "ID", isKey := true },
        { name := "email", isPersonal := true },
        { name := "grade", directive := some (.marker true) },
        { name := "dept", type := "cds.Association"
          association := some {
            kind := .reference, target := "hr.Departments", keys := ["code"] }
          directive := some (.paths ["dept.title"]) }]
      directive := some (.paths paths) }),
    ("hr.Departments", {
      name := "hr.Departments"
      elements := [
        { name := "code", isKey := true },
        { name := "title" },
        { name := "phone", isPersonal := true }] })]

/-- Staff that is identified by its grade. -/
def gradedStaff : Model := ⟨staffEntities ["grade"], by decide⟩

/-- Staff that is identified by its mail address, which is personal data. -/
def mailedStaff : Model := ⟨staffEntities ["email"], by decide⟩

/-- The descriptor of the employees. -/
def staffDescriptor (paths : List String) : Descriptor where
  entity := "hr.Employees"
  service := none
  primaryKey := ["ID"]
  attributes := [
    Tracking.plainAttribute { name := "grade" },
    { name := "dept", type := "cds.Association", valueClass := .ofDeclared "cds.Association"
      relation := .reference, target := some "hr.Departments", foreignKeys := ["dept_code"]
      onTerms := [], labelPaths := ["dept.title"] }]
  identity := paths.map fun path => ⟨path, true⟩
  collections := []
  binding := none

theorem analyze_staff :
    analyze gradedStaff "hr.Employees" {} = .ok ⟨staffDescriptor ["grade"], []⟩ ∧
      analyze mailedStaff "hr.Employees" {} = .ok ⟨staffDescriptor ["email"], []⟩ := by
  decide +kernel

/-- An employee of the audit department. -/
def employee (email : String) : Row :=
  ⟨[("ID", "1"), ("email", email), ("grade", "B"), ("dept_code", "A")]⟩

/-- The audit department. -/
def staffStore (phone : String) : Store :=
  { rows := [("hr.Departments", ⟨[("code", "A"), ("title", "Audit"), ("phone", phone)]⟩)] }

theorem sameButPersonal_employee {m : Model} (h : HoldsPersonalData m "hr.Employees" "email")
    (email email' : String) :
    SameButPersonal m "hr.Employees" (some (employee email)) (some (employee email')) := by
  intro column hcolumn
  have hne : (column == "email") = false := by
    rw [beq_eq_false_iff_ne]
    rintro rfl
    exact hcolumn h
  simp only [Option.bind_some, employee, Row.get?, List.lookup_cons, hne]

theorem storesSameButPersonal_staff {m : Model} (h : HoldsPersonalData m "hr.Departments" "phone")
    (phone phone' : String) :
    StoresSameButPersonal m (staffStore phone) (staffStore phone') := by
  refine ⟨rfl, .cons ⟨rfl, fun column hcolumn => ?_⟩ .nil⟩
  have hne : (column == "phone") = false := by
    rw [beq_eq_false_iff_ne]
    rintro rfl
    exact hcolumn h
  simp only [Option.bind_some, Row.get?, List.lookup_cons, hne]

/-- The way from an employee to the title of the department. -/
def titleRoute : Schema.Route where
  hops := [⟨"hr.Departments", [⟨"code", "dept_code"⟩]⟩]
  columns := ["title"]
  holder := "hr.Departments"
  type := "cds.String"
  isLocalized := false
  isComputed := false

/-- The way to the grade of an employee. -/
def gradeRoute : Schema.Route where
  hops := []
  columns := ["grade"]
  holder := "hr.Employees"
  type := "cds.String"
  isLocalized := false
  isComputed := false

theorem routes_gradedStaff : (gradedStaff.get? "hr.Employees").map (fun employees =>
    (gradedStaff.route employees "dept.title", gradedStaff.route employees "grade")) =
      some (.ok titleRoute, .ok gradeRoute) := by
  decide +kernel

/-- Neither the grade of an employee nor the title of a department is personal data. -/
theorem plannedDiscreetly_gradedStaff (set : TriggerSet) :
    PlannedDiscreetly gradedStaff (staffDescriptor ["grade"]) set := by
  refine ⟨fun _ employees hget => ?_, List.forall_mem_nil _⟩
  have hroutes := routes_gradedStaff
  rw [show gradedStaff.get? "hr.Employees" = some employees from hget, Option.map_some,
    Option.some.injEq, Prod.mk.injEq] at hroutes
  obtain ⟨htitle, hgrade⟩ := hroutes
  refine ⟨fun a ha path hpath route hroute => ?_, by decide, ?_, fun _ hnone => by cases hnone⟩
  · simp only [staffDescriptor, List.mem_cons, List.not_mem_nil, or_false] at ha
    rcases ha with rfl | rfl
    · cases hpath
    · rw [List.mem_singleton.mp hpath, htitle] at hroute
      cases hroute
      have hcode : ¬ HoldsPersonalData gradedStaff "hr.Employees" "dept_code" := by decide +kernel
      have hread : (∀ name ∈ ["code"], ¬ HoldsPersonalData gradedStaff "hr.Departments" name) ∧
          ¬ HoldsPersonalData gradedStaff "hr.Departments" "title" := by decide +kernel
      exact {
        hops := ⟨List.forall_mem_singleton.mpr hcode, trivial⟩
        columns := List.forall_mem_singleton.mpr hread
        translations := fun hlocalized => by cases hlocalized
        translationKey := fun hlocalized => by cases hlocalized }
  · refine List.forall_mem_singleton.mpr fun route hroute => ?_
    rw [hgrade] at hroute
    cases hroute
    have hread : ¬ HoldsPersonalData gradedStaff "hr.Employees" "grade" := by decide +kernel
    exact {
      hops := trivial
      columns := List.forall_mem_singleton.mpr hread
      translations := fun hlocalized => by cases hlocalized
      translationKey := fun hlocalized => by cases hlocalized }

/-- Where staff is identified by its grade, a new employee is recorded in the same way whatever
the mail address is, and the phone number of the department. -/
theorem fire_gradedStaff : ∃ a sets set,
    analyze gradedStaff "hr.Employees" {} = .ok a ∧
      planAll gradedStaff a.descriptor {} = .ok sets ∧ set ∈ sets ∧
      PlannedDiscreetly gradedStaff a.descriptor set ∧
      SameButPersonal gradedStaff set.entity (some (employee "ann@hr")) (some (employee "bob@hr")) ∧
      StoresSameButPersonal gradedStaff (staffStore "100") (staffStore "200") ∧
      fire set .create none (some (employee "ann@hr")) (staffStore "100") {} =
        fire set .create none (some (employee "bob@hr")) (staffStore "200") {} := by
  have ha := analyze_staff.1
  obtain ⟨sets, hplan⟩ := Plan.exists_planAll ha {}
  obtain ⟨set, hown⟩ := Plan.exists_ownSet ha rfl
  have hset : set ∈ sets := Plan.mem_planAll_of_planEntity hplan hown
  obtain ⟨-, hentity, -, -⟩ := Plan.table_of_planEntity hown
  have hrow := sameButPersonal_employee (m := gradedStaff) (by decide +kernel) "ann@hr" "bob@hr"
  have hstore := storesSameButPersonal_staff (m := gradedStaff) (by decide +kernel) "100" "200"
  rw [show "hr.Employees" = set.entity from hentity.symm] at hrow
  have hdiscreet := plannedDiscreetly_gradedStaff set
  exact ⟨_, sets, set, ha, hplan, hset, hdiscreet, hrow, hstore,
    fire_eq_of_plannedDiscreetly ha hplan hset hdiscreet (fun _ _ => rfl) hrow hstore .create {}⟩

/-- The object identifiers that are recorded with a new employee. -/
def newcomerIdentifiers (set : TriggerSet) (email : String) : List (Option String) :=
  (fire set .create none (some (employee email)) {} {}).records.map (·.objectId)

/-- Where staff is identified by its mail address, the address is recorded with a new employee,
although it is personal data. -/
theorem fire_mailedStaff : ∃ a sets set,
    analyze mailedStaff "hr.Employees" {} = .ok a ∧
      planAll mailedStaff a.descriptor {} = .ok sets ∧ set ∈ sets ∧
      SameButPersonal mailedStaff set.entity (some (employee "ann@hr")) (some (employee "bob@hr")) ∧
      newcomerIdentifiers set "ann@hr" = [some "ann@hr", some "ann@hr"] ∧
      newcomerIdentifiers set "bob@hr" = [some "bob@hr", some "bob@hr"] ∧
      fire set .create none (some (employee "ann@hr")) {} {} ≠
        fire set .create none (some (employee "bob@hr")) {} {} := by
  have ha := analyze_staff.2
  obtain ⟨sets, hplan⟩ := Plan.exists_planAll ha {}
  obtain ⟨set, hown⟩ := Plan.exists_ownSet ha rfl
  have hset : set ∈ sets := Plan.mem_planAll_of_planEntity hplan hown
  obtain ⟨-, hentity, -, -⟩ := Plan.table_of_planEntity hown
  have hrow := sameButPersonal_employee (m := mailedStaff) (by decide +kernel) "ann@hr" "bob@hr"
  rw [show "hr.Employees" = set.entity from hentity.symm] at hrow
  have hidentifiers : (Plan.planEntity mailedStaff (staffDescriptor ["email"]) {}).toOption.bind
      (Option.map fun own => (newcomerIdentifiers own "ann@hr", newcomerIdentifiers own "bob@hr")) =
        some ([some "ann@hr", some "ann@hr"], [some "bob@hr", some "bob@hr"]) := by
    decide +kernel
  rw [show Plan.planEntity mailedStaff (staffDescriptor ["email"]) {} = .ok (some set) from hown]
    at hidentifiers
  obtain ⟨hann, hbob⟩ := Prod.mk.inj (Option.some.inj hidentifiers)
  refine ⟨_, sets, set, ha, hplan, hset, hrow, hann, hbob, fun heq => ?_⟩
  have hsame : newcomerIdentifiers set "ann@hr" = newcomerIdentifiers set "bob@hr" :=
    congrArg (fun outcome => outcome.records.map (·.objectId)) heq
  rw [hann, hbob] at hsame
  exact absurd hsame (by decide)

end ChangeTracking.Firing
