import ChangeTracking.Proofs.Plan.PlannedSets
import ChangeTracking.Proofs.Tracking.Analyses

/-!
# Children and their owners

The children of an entity have triggers of their own, and triggers that track them as a
collection of the owner.  Either way the owner is planned from the link of the child: its
key from the child's columns, and its identifier from the record that they lead to, by
the same paths by which the owner identifies itself.
-/

namespace ChangeTracking.Plan

open Schema (ColumnPair Entity Model)
open Tracking (Analysis Collection Descriptor Merged RootBinding RootLink analyze annotatedPaths
  identityFields mergeDirectives primaryKey)

variable {m : Model} {settings : Settings}

/-- The paths that an entity asks to be identified by, read from the origin of a record. -/
def identifierFrom (m : Model) (e : Entity) (merged : Merged) (key : List String)
    (origin : Origin) : Option Expr :=
  identifier m e (identityFields m e (annotatedPaths merged.entity)) key origin

/-- The object identifier of an entity, read from the written row. -/
def ownIdentifier (m : Model) (e : Entity) : Except Fault (Option Expr) :=
  (mergeDirectives m e).map fun merged =>
    identifierFrom m e merged (primaryKey e) (.row .subject)

/-- The set is on the table of children that reach their owner by the link: it is the set of
the child's own attributes, or that of a collection of the owner. -/
inductive PlansChildren (m : Model) (settings : Settings) (d : Descriptor) :
    String → RootLink → TriggerSet → Prop
  | own {binding : RootBinding} {set : TriggerSet} (hbinding : d.binding = some binding)
      (hplan : planEntity m d settings = .ok (some set)) :
      PlansChildren m settings d binding.root binding.link set
  | collection {c : Collection} {link : RootLink} {set : TriggerSet} (hc : c ∈ d.collections)
      (hlink : c.link = some link) (hplan : planCollection m d settings c = .ok set) :
      PlansChildren m settings d d.entity link set

/-! ## What is analyzed owns a table -/

/-- An analysis describes the entity that owns the table. -/
theorem database_of_analyze {name : String} {a : Analysis} (h : analyze m name settings = .ok a) :
    ∃ db merged, m.get? a.descriptor.entity = some db ∧ db.projectionOf = none ∧
      mergeDirectives m db = .ok merged ∧ a.descriptor.primaryKey = primaryKey db ∧
      a.descriptor.identity = identityFields m db (annotatedPaths merged.entity) := by
  obtain ⟨requested, db, merged, _, _, _, hrequested, hdb, hmerged, -, -, hdescriptor⟩ :=
    Tracking.steps_of_analyze h
  obtain ⟨hget, hprojection⟩ := Schema.Model.get?_databaseEntity hrequested hdb
  rw [hdescriptor]
  exact ⟨db, merged, hget, hprojection, hmerged, rfl, rfl⟩

/-- The owner that a descriptor binds its entity to owns a table as well. -/
theorem root_of_binding {name : String} {a : Analysis} (h : analyze m name settings = .ok a)
    {b : RootBinding} (hb : a.descriptor.binding = some b) :
    ∃ root merged, m.get? b.root = some root ∧ root.projectionOf = none ∧
      mergeDirectives m root = .ok merged ∧
      b.identity = identityFields m root (annotatedPaths merged.entity) := by
  obtain ⟨_, _, _, _, binding, _, -, -, -, -, hbinding, hdescriptor⟩ := Tracking.steps_of_analyze h
  rw [hdescriptor] at hb
  have hsome : binding = some b := hb
  rw [hsome] at hbinding
  obtain ⟨root, merged, hget, hprojection, -, hmerged, hidentity⟩ :=
    Tracking.root_of_rootBinding hbinding
  exact ⟨root, merged, hget, hprojection, hmerged, hidentity⟩

/-- The own set of an entity carries the entity's own key and identifier. -/
theorem identity_of_ownSet {name : String} {e : Entity} (hget : m.get? name = some e)
    (hprojection : e.projectionOf = none) {a : Analysis} (h : analyze m name settings = .ok a)
    {set : TriggerSet} (hplan : planEntity m a.descriptor settings = .ok (some set)) :
    set.key = encodeKey (primaryKey e) .subject ∧ ownIdentifier m e = .ok set.identifier := by
  obtain ⟨db, merged, hdb, -, hmerged, hkey, hidentity⟩ := database_of_analyze h
  rw [Tracking.entity_of_analyze ⟨e, hget, hprojection⟩ h, hget] at hdb
  cases hdb
  obtain ⟨entity, hentity, hsetKey, hidentifier, -⟩ := identity_of_planEntity hplan
  rw [Tracking.entity_of_analyze ⟨e, hget, hprojection⟩ h, Schema.Model.entity_eq_ok_iff, hget]
    at hentity
  cases hentity
  refine ⟨?_, ?_⟩
  · rw [hsetKey, hkey]
  · rw [ownIdentifier, hmerged, hidentifier, hidentity, hkey]
    rfl

/-! ## The owner in a set of children -/

/-- A planned set with an owner is on the table of children that a link leads to the owner. -/
theorem plansChildren_of_owner {d : Descriptor} {sets : List TriggerSet}
    (h : planAll m d settings = .ok sets) {set : TriggerSet} (hset : set ∈ sets) {o : Owner}
    (ho : set.owner = some o) : ∃ link, PlansChildren m settings d o.entity link set := by
  -- The owner is planned for the entity that it is named by.
  have hname {child rootName : String} {childKey : List String} {link : RootLink}
      {fields : List Tracking.IdentityField}
      (ho : owner m child childKey rootName link fields = .ok o) : o.entity = rootName := by
    obtain ⟨root, hget, hentity⟩ := entity_of_owner ho
    exact hentity.trans (Schema.Model.name_of_get? hget)
  rcases mem_planAll h hset with hown | ⟨c, hc, hcollection⟩
  · obtain ⟨_, -, -, -, howner⟩ := identity_of_planEntity hown
    rw [ho] at howner
    obtain ⟨binding, hbinding, howner⟩ := exists_of_mapM_eq_some howner
    exact ⟨binding.link, hname howner ▸ .own hbinding hown⟩
  · obtain ⟨_, -, -, -, howner⟩ := identity_of_planCollection hcollection
    rw [ho] at howner
    obtain ⟨link, hlink, howner⟩ := exists_of_mapM_eq_some howner
    exact ⟨link, hname howner ▸ .collection hc hlink hcollection⟩

/-- The children are records of an entity of the model, known by its primary key, and linked to
the owner by columns. -/
theorem child_of_plansChildren {name : String} {a : Analysis} (h : analyze m name settings = .ok a)
    {rootName : String} {link : RootLink} {set : TriggerSet}
    (hset : PlansChildren m settings a.descriptor rootName link set) :
    ∃ child, m.get? set.entity = some child ∧ set.primaryKey = primaryKey child ∧
      link.joins ≠ [] := by
  cases hset with
  | own hbinding hplan =>
      obtain ⟨db, root, hget, -, hlink⟩ := Tracking.link_of_binding h hbinding
      obtain ⟨db', _, hget', -, -, hkey, -⟩ := database_of_analyze h
      cases hget.symm.trans hget'
      obtain ⟨-, hentity, -, hprimary⟩ := table_of_planEntity hplan
      exact ⟨db, hentity ▸ hget, hprimary.trans hkey, Tracking.joins_ne_nil_of_rootLink hlink⟩
  | collection hc hlink hplan =>
      obtain ⟨_, _, -, -, target, _, hget, -, rfl⟩ := Tracking.collectedAs_of_mem_collections h hc
      obtain ⟨target', htarget, hentity, -, hprimary⟩ := table_of_planCollection hplan
      cases hget.symm.trans (Schema.Model.entity_eq_ok_iff.mp htarget)
      exact ⟨target, hentity ▸ hget, hprimary, Tracking.joins_ne_nil_of_rootLink hlink⟩

/-- Whatever link leads to the owner, its key and its identifier are read by the link: from the
child's own row, or from the row that the child's table has under the child's key. -/
theorem owner_of_plansChildren {name : String} {a : Analysis} (h : analyze m name settings = .ok a)
    {rootName : String} {link : RootLink} {set : TriggerSet}
    (hset : PlansChildren m settings a.descriptor rootName link set) :
    ∃ root merged o, m.get? rootName = some root ∧ root.projectionOf = none ∧
      mergeDirectives m root = .ok merged ∧ set.owner = some o ∧
      o.key = joinedKey (link.joins.map fun join =>
        rawText ((linkOrigin set.entity set.primaryKey link).read join.source)) ∧
      o.identifier = identifierFrom m root merged (link.joins.map (·.target))
        (.keyed root.name (link.joins.map fun join =>
          (join.target, (linkOrigin set.entity set.primaryKey link).read join.source))) := by
  -- Both kinds of sets plan the owner from the link and the owner's paths.
  have hroot : ∃ root merged fields, m.get? rootName = some root ∧
      root.projectionOf = none ∧ mergeDirectives m root = .ok merged ∧
      fields = identityFields m root (annotatedPaths merged.entity) ∧
      (owner m set.entity set.primaryKey rootName link fields).map some = .ok set.owner := by
    cases hset with
    | own hbinding hplan =>
        obtain ⟨root, merged, hget, hprojection, hmerged, hidentity⟩ := root_of_binding h hbinding
        obtain ⟨_, -, -, -, howner⟩ := identity_of_planEntity hplan
        obtain ⟨-, hentity, -, hprimary⟩ := table_of_planEntity hplan
        rw [hbinding, ← hentity, ← hprimary] at howner
        exact ⟨root, merged, _, hget, hprojection, hmerged, hidentity, howner⟩
    | collection hc hcollection hplan =>
        obtain ⟨db, merged, hget, hprojection, hmerged, -, hidentity⟩ := database_of_analyze h
        obtain ⟨target, htarget, -, -, howner⟩ := identity_of_planCollection hplan
        obtain ⟨target', htarget', hentity, -, hprimary⟩ := table_of_planCollection hplan
        cases htarget.symm.trans htarget'
        rw [hcollection, ← hentity, ← hprimary] at howner
        exact ⟨db, merged, _, hget, hprojection, hmerged, hidentity, howner⟩
  obtain ⟨root, merged, fields, hget, hprojection, hmerged, rfl, howner⟩ := hroot
  obtain ⟨o, ho, hsome⟩ := map_eq_ok.mp howner
  obtain ⟨root', hroot', hkey, hidentifier⟩ := parts_of_owner ho
  cases (Schema.Model.entity_eq_ok_iff.mp hroot').symm.trans hget
  exact ⟨root, merged, o, hget, hprojection, hmerged, hsome.symm, hkey, hidentifier⟩

/-- The columns of the child that lead to the owner, each for a column of the owner. -/
def linkFilters (joins : List ColumnPair) : List (String × Expr) :=
  joins.map fun join => (join.target, .column .subject join.source)

/-- Where foreign keys lead to the owner, its key is made of the child's own columns, and its
identifier is read from the record that they select. -/
theorem owner_of_foreignKeys {name : String} {a : Analysis} (h : analyze m name settings = .ok a)
    {rootName : String} {joins : List ColumnPair} {set : TriggerSet}
    (hset : PlansChildren m settings a.descriptor rootName (.foreignKeys joins) set) :
    ∃ root merged o, m.get? rootName = some root ∧ root.projectionOf = none ∧
      mergeDirectives m root = .ok merged ∧ set.owner = some o ∧
      o.key = encodeKey (joins.map (·.source)) .subject ∧
      o.identifier = identifierFrom m root merged (joins.map (·.target))
        (.keyed root.name (linkFilters joins)) := by
  obtain ⟨root, merged, o, hget, hprojection, hmerged, ho, hkey, hidentifier⟩ :=
    owner_of_plansChildren h hset
  refine ⟨root, merged, o, hget, hprojection, hmerged, ho, ?_, hidentifier⟩
  rw [hkey, encodeKey, List.map_map]
  rfl

end ChangeTracking.Plan
