import ChangeTracking.Proofs.Tracking.Examinations
import ChangeTracking.Proofs.Tracking.Joins

/-!
# Tracked attributes

The tracked attributes of an entity are those elements that some source asks for and that have a
value to record, in declared order.  Each of them has columns that decide whether it changed, and
what is tracked at all has a key.
-/

namespace ChangeTracking.Tracking

open Schema (Association Directive Element Entity Model)

variable {m : Model} {settings : Settings} {db : Entity} {merged : Merged} {element : Element}

/-! ## Elements that some source asks for -/

/-- Joined directives ask for tracking exactly if one of them does. -/
theorem IsJoin.isEnabled_iff {declared : Directive → Prop} {joined : Option Directive}
    (h : IsJoin declared joined) :
    joined.any Directive.isEnabled = true ↔
      ∃ directive, declared directive ∧ directive.isEnabled = true := by
  constructor
  · intro hany
    obtain ⟨directive, hjoined, henabled⟩ := (Option.any_eq_true _ _).mp hany
    exact ⟨directive, h.declared_of_eq hjoined, henabled⟩
  · rintro ⟨directive, hdeclared, henabled⟩
    cases h with
    | paths hlist hsame => rfl
    | enabled htrue hpaths => rfl
    | disabled hfalse htrue hpaths =>
        cases directive with
        | marker enabled =>
            have htrue' : enabled = true := henabled
            rw [htrue'] at hdeclared
            exact absurd hdeclared htrue
        | paths list => exact absurd hdeclared (hpaths list)
    | absent hnothing => exact absurd hdeclared (hnothing directive)

/-- The merged directives ask for an element exactly if a source of the entity does. -/
theorem asksFor_iff (hdb : m.get? db.name = some db) (howner : db.projectionOf = none)
    (hmerged : mergeDirectives m db = .ok merged) (element : Element) :
    merged.asksFor element = true ↔
      ∃ directive, IsDeclared m db (.element element.name) directive ∧
        directive.isEnabled = true := by
  have hjoins := joinsDeclared_of_mem_iff fun e => mem_directiveSources_iff (e := e) hdb howner
  have hjoin := hjoins.isJoin merged hmerged (.element element.name)
  rw [← hjoin.isEnabled_iff, Option.any_map]
  rfl

/-! ## Attributes -/

/-- The element is tracked as an attribute: it is asked for, and has a value to record. -/
def Merged.tracks (merged : Merged) (element : Element) : Bool :=
  merged.asksFor element && isTrackable element

/-- The attribute stands for the element: for a value of its own, or for the association there,
which it compares by the foreign keys or else by the terms of the condition. -/
structure Describes (element : Element) (tracked : Attribute) : Prop where
  name_eq : tracked.name = element.name
  plain : element.association = none → tracked.isRelationship = false ∧ tracked.target = none ∧
    tracked.foreignKeys = [] ∧ tracked.onTerms = [] ∧ tracked.labelPaths = []
  related : ∀ association, element.association = some association →
    tracked.isRelationship = true ∧ tracked.target = some association.target ∧
      tracked.foreignKeys = element.foreignKeyColumns ∧
      (tracked.foreignKeys ≠ [] ∧ tracked.onTerms = [] ∨
        tracked.foreignKeys = [] ∧ tracked.onTerms = onPairs element ∧ tracked.onTerms ≠ [])
  watched_ne_nil : tracked.watched ≠ []

theorem describes_plainAttribute (hassociation : element.association = none) :
    Describes element (plainAttribute element) where
  name_eq := rfl
  plain _ := ⟨rfl, rfl, rfl, rfl, rfl⟩
  related association h := by cases hassociation.symm.trans h
  watched_ne_nil := List.cons_ne_nil _ _

theorem describes_relationAttribute (htrackable : isTrackable element = true)
    {association : Association} (hassociation : element.association = some association)
    (paths : List String) :
    Describes element (relationAttribute m db element association paths) := by
  have hcolumns := ((isTrackable_iff.mp htrackable).2.2.2 association hassociation).2
  refine ⟨rfl, fun hnone => ?_, fun association' h => ?_, ?_⟩
  · cases hassociation.symm.trans hnone
  · cases hassociation.symm.trans h
    refine ⟨by cases hkind : association.kind <;> simp [Attribute.isRelationship, relationAttribute,
      relationOf, hkind], rfl, rfl, ?_⟩
    by_cases hkeys : element.foreignKeyColumns = []
    · have hon : onPairs element ≠ [] := hcolumns.resolve_left (not_not_intro hkeys)
      exact .inr ⟨hkeys, by simp [relationAttribute, hkeys],
        by simp [relationAttribute, hkeys, hon]⟩
    · exact .inl ⟨hkeys, by simp [relationAttribute, hkeys]⟩
  · rw [watched_relationAttribute]
    by_cases hkeys : element.foreignKeyColumns = []
    · simpa [hkeys] using hcolumns
    · simp [hkeys]

/-- An element contributes an attribute exactly if it is asked for and has a value to record. -/
theorem Examined.attribute {finding : Finding} {warnings : List Warning}
    (h : Examined m db merged element finding warnings) :
    (merged.tracks element = true ∧
      ∃ tracked, finding.attribute? = some tracked ∧ Describes element tracked) ∨
    (merged.tracks element = false ∧ finding.attribute? = none) := by
  unfold Merged.tracks
  cases h with
  | unasked hasks => exact .inr ⟨by rw [hasks, Bool.false_and], rfl⟩
  | refused hcollection htrackable hpathless => exact .inr ⟨by rw [htrackable, Bool.and_false], rfl⟩
  | plain hasks htrackable hassociation =>
      exact .inl ⟨by rw [hasks, htrackable, Bool.and_self], _, rfl,
        describes_plainAttribute hassociation⟩
  | related hasks htrackable hassociation =>
      exact .inl ⟨by rw [hasks, htrackable, Bool.and_self], _, rfl,
        describes_relationAttribute htrackable hassociation _⟩
  | collected hcollection hassociation htarget hpaths hpathless =>
      exact .inr ⟨by rw [isTrackable_of_isCollection hcollection, Bool.and_false], rfl⟩

/-- The attributes that are found stand for the elements to be tracked, in their order. -/
theorem describes_findings {elements : List Element} {findings : List (Finding × List Warning)}
    (h : List.Forall₂ (fun element finding => Examined m db merged element finding.1 finding.2)
      elements findings) :
    List.Forall₂ Describes (elements.filter merged.tracks)
      (findings.filterMap (·.1.attribute?)) := by
  induction h with
  | nil => exact .nil
  | cons hexamined _ ih =>
      rcases hexamined.attribute with ⟨htracked, tracked, hfound, hdescribes⟩ | ⟨huntracked, hnone⟩
      · simp only [List.filter_cons_of_pos htracked, List.filterMap_cons, hfound]
        exact .cons hdescribes ih
      · simp only [List.filter_cons_of_neg (ne_true_of_eq_false huntracked), List.filterMap_cons,
          hnone]
        exact ih

/-! ## Entities -/

/-- The tracked attributes of an entity are, in declared order, exactly those elements that a source
of the entity asks for and that have a value to record.  Each of them has columns that decide
whether it changed, and an entity of which anything is tracked has a key. -/
theorem attributes_of_analyze {name : String} {a : Analysis}
    (h : analyze m name settings = .ok a) :
    ∃ db merged, EndsIn m name db ∧ a.descriptor.entity = db.name ∧
      mergeDirectives m db = .ok merged ∧
      (∀ element ∈ db.elements, merged.asksFor element = true ↔
        ∃ directive, IsDeclared m db (.element element.name) directive ∧
          directive.isEnabled = true) ∧
      List.Forall₂ Describes (db.elements.filter merged.tracks) a.descriptor.attributes ∧
      (a.descriptor.attributes ≠ [] ∨ a.descriptor.collections ≠ [] →
        a.descriptor.primaryKey ≠ []) := by
  have hkey := primaryKey_ne_nil_of_analyze h
  obtain ⟨requested, db, merged, findings, _, _, hrequested, hdb, hmerged, hfindings, -,
    hdescriptor⟩ := steps_of_analyze h
  obtain ⟨hget, howner⟩ := Model.get?_databaseEntity hrequested hdb
  refine ⟨db, merged, ⟨requested, hrequested, hdb⟩, by rw [hdescriptor], hmerged,
    fun element _ => asksFor_iff hget howner hmerged element, ?_, hkey⟩
  rw [hdescriptor]
  exact describes_findings (examined_of_mapM hfindings)

/-! ### Tickets -/

namespace Tickets

/-- An association of a ticket to one person. -/
def person (name : String) (directive : Option Directive) : Element where
  name := name
  type := "cds.Association"
  association := some { kind := .reference, target := "desk.People", keys := ["ID"] }
  directive := directive

/-- Tickets with elements of every kind, all of which are asked for except the remark. -/
def tickets : Entity where
  name := "desk.Tickets"
  elements := [
    { name := "ID", isKey := true },
    { name := "phone", isPersonal := true, directive := some (.marker true) },
    { name := "title", directive := some (.marker false) },
    { name := "remark", directive := some (.marker false) },
    { name := "age", isVirtual := true, directive := some (.marker true) },
    person "assignee" (some (.paths ["assignee.name"])),
    { name := "assignee_ID", foreignKeyOf := some "assignee", directive := some (.marker true) },
    { name := "parent", type := "cds.Association"
      association := some {
        kind := .reference, target := "desk.Tickets", on := [⟨"ID", "parentID"⟩] }
      directive := some (.marker true) },
    { name := "owner", type := "cds.Association"
      association := some { kind := .reference, target := "desk.People" }
      directive := some (.marker true) },
    { name := "watchers", type := "cds.Association"
      association := some {
        kind := .reference, target := "desk.People", many := true, keys := ["ID"] }
      directive := some (.marker true) },
    { name := "notes", type := "cds.Composition"
      association := some {
        kind := .composition, target := "desk.Notes", many := true, on := [⟨"ticket_ID", "ID"⟩] }
      directive := some (.marker true) }]

/-- The tickets in a service that asks for their titles. -/
def listed : Entity where
  name := "Desk.Tickets"
  elements := [{ name := "title", directive := some (.marker true) }]
  projectionOf := some "desk.Tickets"

def notes : Entity where
  name := "desk.Notes"
  elements := [{ name := "ID", isKey := true }, { name := "text" }]

def people : Entity where
  name := "desk.People"
  elements := [{ name := "ID", isKey := true }, { name := "name" }]

def model : Model where
  entities := NameMap.ofList
    ([listed, notes, people, tickets].map fun entity => (entity.name, entity))
  checked := by decide

/-- Of a ticket, the title, the assignee and the parent are tracked. -/
theorem attributes_tickets : ∃ a, analyze model "Desk.Tickets" {} = .ok a ∧
    a.descriptor.attributes.map (·.name) = ["title", "assignee", "parent"] ∧
    a.descriptor.collections.map (·.element) = ["notes"] ∧
    ∃ db merged, EndsIn model "Desk.Tickets" db ∧ a.descriptor.entity = db.name ∧
      mergeDirectives model db = .ok merged ∧
      (∀ element ∈ db.elements, merged.asksFor element = true ↔
        ∃ directive, IsDeclared model db (.element element.name) directive ∧
          directive.isEnabled = true) ∧
      List.Forall₂ Describes (db.elements.filter merged.tracks) a.descriptor.attributes ∧
      (a.descriptor.attributes ≠ [] ∨ a.descriptor.collections ≠ [] →
        a.descriptor.primaryKey ≠ []) := by
  have hnames : (analyze model "Desk.Tickets" {}).map (fun a =>
      (a.descriptor.attributes.map (·.name), a.descriptor.collections.map (·.element))) =
      .ok (["title", "assignee", "parent"], ["notes"]) := by
    decide +kernel
  obtain ⟨a, ha, hnames⟩ := map_eq_ok.mp hnames
  obtain ⟨hattributes, hcollections⟩ := Prod.mk.inj hnames
  exact ⟨a, ha, hattributes, hcollections, attributes_of_analyze ha⟩

end Tickets

end ChangeTracking.Tracking
