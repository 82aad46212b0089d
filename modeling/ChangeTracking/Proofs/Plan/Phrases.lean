import ChangeTracking.Proofs.Plan.Success
import ChangeTracking.Proofs.Tracking.Paths

/-!
# Phrases of annotated paths

Planning resolves the paths that an analysis kept once more, from the entities from which they were
resolved before, and loses none of them.  An identifier or a label joins one value for each path,
in their order, and is absent exactly if no path was kept.
-/

namespace ChangeTracking.Plan

open Schema (Entity Model)
open Tracking (Analysis Attribute Collection Descriptor EndsIn IdentityField RootBinding RootLink
  SiftsPaths Sifted analyze keptPaths mergeDirectives resolves)

variable {m : Model} {start : Entity} {origins : List Origin} {settings : Settings}

/-! ## Phrases -/

/-- The expression joins one value for each of the paths, in their order, each read from one of the
origins; without paths there is none. -/
inductive Phrases (m : Model) (start : Entity) (origins : List Origin) :
    List String → Option Expr → Prop
  | absent : Phrases m start origins [] none
  | joined {paths : List String} {values : List Expr} (hpaths : paths ≠ [])
      (hvalues : List.Forall₂
        (fun path value => ∃ origin ∈ origins, pathValue m start path origin = .ok value)
        paths values) :
      Phrases m start origins paths (some (.encoded .truncated (.listJoin values)))

theorem exists_pathValue {path : String} (h : resolves m start path = true) (origin : Origin) :
    ∃ value, pathValue m start path origin = .ok value := by
  rw [resolves] at h
  cases hroute : m.route start path with
  | ok route => exact ⟨routeValue m route origin, by rw [pathValue, hroute]; rfl⟩
  | error deadEnd =>
      rw [hroute] at h
      cases h

/-- The phrase of the parts, if there are any. -/
def phraseOf : List Expr → Option Expr
  | [] => none
  | parts => some (.encoded .truncated (.listJoin parts))

theorem phrase_eq_phraseOf (m : Model) (start : Entity) (paths : List (String × Origin)) :
    phrase m start paths =
      phraseOf (paths.filterMap fun p => (pathValue m start p.1 p.2).toOption) := by
  unfold phrase
  cases paths.filterMap fun p => (pathValue m start p.1 p.2).toOption <;> rfl

section Joined

variable {α : Type} {xs : List α} {path : α → String} {origin : α → Origin}

/-- Where all paths resolve, each of them has a value. -/
theorem forall₂_fragments (h : ∀ x ∈ xs, resolves m start (path x) = true) :
    List.Forall₂ (fun x value => pathValue m start (path x) (origin x) = .ok value) xs
      ((xs.map fun x => (path x, origin x)).filterMap fun p =>
        (pathValue m start p.1 p.2).toOption) := by
  induction xs with
  | nil => exact .nil
  | cons x xs ih =>
      obtain ⟨hresolves, hxs⟩ := List.forall_mem_cons.mp h
      obtain ⟨value, hvalue⟩ := exists_pathValue hresolves (origin x)
      simp only [List.map_cons, List.filterMap_cons, hvalue, Except.toOption]
      exact .cons hvalue (ih hxs)

theorem phrases_phrase (h : ∀ x ∈ xs, resolves m start (path x) = true ∧ origin x ∈ origins) :
    Phrases m start origins (xs.map path)
      (phrase m start (xs.map fun x => (path x, origin x))) := by
  have hfragments : List.Forall₂
      (fun x value => pathValue m start (path x) (origin x) = .ok value) xs _ :=
    forall₂_fragments fun x hx => (h x hx).1
  rw [phrase_eq_phraseOf]
  generalize ((xs.map fun x => (path x, origin x)).filterMap fun p =>
    (pathValue m start p.1 p.2).toOption) = values at hfragments ⊢
  cases hfragments with
  | nil => exact .absent
  | cons hvalue hvalues =>
      refine .joined (List.cons_ne_nil _ _) ?_
      rw [List.forall₂_map_left_iff]
      have hall := (List.forall₂_and_left _ _).mpr ⟨h, .cons hvalue hvalues⟩
      exact hall.imp fun x value hx => ⟨origin x, hx.1.2, hx.2⟩

end Joined

/-- The places where the fields of an identifier are read: the record at hand, or the same record
read back from its table. -/
def identifierOrigins (entity : Entity) (key : List String) (origin : Origin) : List Origin :=
  [origin, origin.readBack entity.name key]

theorem fieldOrigin_mem (m : Model) (entity : Entity) (key : List String) (origin : Origin)
    (field : IdentityField) :
    fieldOrigin m entity key origin field ∈ identifierOrigins entity key origin := by
  unfold fieldOrigin identifierOrigins
  cases m.route entity field.path with
  | error deadEnd => simp
  | ok route => by_cases hback : (!field.onRow && route.isLocal) = true <;> simp [hback]

theorem phrases_identifier {fields : List IdentityField}
    (h : ∀ path ∈ fields.map (·.path), resolves m start path = true) (key : List String)
    (origin : Origin) :
    Phrases m start (identifierOrigins start key origin) (fields.map (·.path))
      (identifier m start fields key origin) :=
  phrases_phrase fun field hfield =>
    ⟨h field.path (List.mem_map_of_mem hfield), fieldOrigin_mem m start key origin field⟩

theorem phrases_label {paths : List String} (h : ∀ path ∈ paths, resolves m start path = true)
    (origin : Origin) : Phrases m start [origin] paths (label m start paths origin) := by
  have hphrase : Phrases m start [origin] (paths.map id) (label m start paths origin) :=
    phrases_phrase fun path hpath => ⟨h path hpath, List.mem_singleton_self origin⟩
  rwa [List.map_id] at hphrase

/-! ## Owners -/

/-- Where the owner of a child is read: the record that the link of the child leads to. -/
def ownerOrigin (child : String) (childKey : List String) (root : Entity) (link : RootLink) :
    Origin :=
  .keyed root.name
    (link.joins.map fun join => (join.target, (linkOrigin child childKey link).read join.source))

/-- The owner is identified by the paths, read from the record that the link leads to. -/
def PhrasesOwner (m : Model) (child : String) (childKey : List String) (root : Entity)
    (link : RootLink) (paths : List String) (o : Owner) : Prop :=
  o.entity = root.name ∧
    Phrases m root
      (identifierOrigins root (link.joins.map (·.target)) (ownerOrigin child childKey root link))
      paths o.identifier

theorem phrasesOwner_of_owner {child rootName : String} {childKey : List String} {root : Entity}
    {link : RootLink} {fields : List IdentityField} {o : Owner}
    (hroot : m.get? rootName = some root)
    (hfields : ∀ path ∈ fields.map (·.path), resolves m root path = true)
    (h : owner m child childKey rootName link fields = .ok o) :
    PhrasesOwner m child childKey root link (fields.map (·.path)) o := by
  rw [owner, Schema.Model.entity_eq_ok_iff.mpr hroot] at h
  cases h
  exact ⟨rfl, phrases_identifier hfields _ _⟩

/-- An optional step takes what there is to its result. -/
theorem rel_of_optionMapM {α β ε : Type} {f : α → Except ε β} {R : α → β → Prop} {x : Option α}
    {y : Option β} (h : x.mapM f = .ok y) (hstep : ∀ a b, x = some a → f a = .ok b → R a b) :
    Option.Rel R x y := by
  cases y with
  | none =>
      cases x with
      | none => exact .none
      | some a =>
          rw [Option.mapM_some] at h
          obtain ⟨b, -, hb⟩ := map_eq_ok.mp h
          cases hb
  | some b =>
      obtain ⟨a, rfl, ha⟩ := exists_of_mapM_eq_some h
      exact .some (hstep a b rfl ha)

/-! ## Planned sets -/

/-- The set of a collection carries the phrases of all paths that were kept for it. -/
structure PhrasesCollection (m : Model) (db : Entity) (d : Descriptor) (c : Collection)
    (set : TriggerSet) : Prop where
  collection_eq : set.collection = some c.element
  identifier : ∃ target, m.get? c.target = some target ∧
    Phrases m target (identifierOrigins target c.targetKeys (.row .subject))
      (c.identity.map (·.path)) set.identifier
  owner : Option.Rel
    (fun link o => PhrasesOwner m c.target c.targetKeys db link (d.identity.map (·.path)) o)
    c.link set.owner

/-- The set of an entity carries the phrases of all paths that were kept for it. -/
structure PhrasesEntity (m : Model) (db : Entity) (d : Descriptor) (set : TriggerSet) : Prop where
  identifier : Phrases m db (identifierOrigins db d.primaryKey (.row .subject))
    (d.identity.map (·.path)) set.identifier
  labels : List.Forall₂
    (fun tracked column => column.name = tracked.name ∧
      Phrases m db [.row .subject] tracked.labelPaths column.label)
    d.attributes set.columns
  owner : Option.Rel
    (fun binding o => ∃ root, m.get? binding.root = some root ∧
      PhrasesOwner m d.entity d.primaryKey root binding.link (binding.identity.map (·.path)) o)
    d.binding set.owner

section Kept

variable {db : Entity} {merged : Tracking.Merged} {a : Analysis}
  {findings : List (Tracking.Finding × List Tracking.Notice)} {given : List Tracking.Notice}
  (hdb : m.get? a.descriptor.entity = some db) (hsifts : SiftsPaths m db merged a findings given)
include hdb hsifts

theorem phrasesEntity_of_planEntity {set : TriggerSet}
    (h : planEntity m a.descriptor settings = .ok (some set)) :
    PhrasesEntity m db a.descriptor set := by
  obtain ⟨-, entity, owner, hentity, howner, rfl⟩ := eq_of_planEntity h
  cases hdb.symm.trans (Schema.Model.entity_eq_ok_iff.mp hentity)
  constructor
  case identifier =>
    exact phrases_identifier (Tracking.resolves_of_kept hsifts.identity) _ _
  case labels =>
    rw [List.forall₂_map_right_iff, List.forall₂_same]
    exact fun tracked hmem => ⟨rfl, phrases_label (hsifts.resolves_labels hmem) _⟩
  case owner =>
    refine rel_of_optionMapM howner fun binding o hbinding ho => ?_
    obtain ⟨root, hroot, hresolves⟩ := (hbinding ▸ hsifts.binding).resolves
    exact ⟨root, hroot, phrasesOwner_of_owner hroot hresolves ho⟩

theorem phrasesCollection_of_planCollection {c : Collection} (hc : c ∈ a.descriptor.collections)
    {set : TriggerSet} (h : planCollection m a.descriptor settings c = .ok set) :
    PhrasesCollection m db a.descriptor c set := by
  obtain ⟨target, owner, htarget, howner, rfl⟩ := eq_of_planCollection h
  obtain ⟨target', htarget', hresolves⟩ := hsifts.resolves_collection hc
  cases htarget'.symm.trans (Schema.Model.entity_eq_ok_iff.mp htarget)
  refine ⟨rfl, ⟨target, htarget', phrases_identifier hresolves _ _⟩, ?_⟩
  rw [← Schema.Model.name_of_get? htarget']
  exact rel_of_optionMapM howner fun link o _ ho =>
    phrasesOwner_of_owner hdb (Tracking.resolves_of_kept hsifts.identity) ho

theorem phrasesCollections_of_planCollections {sets : List TriggerSet}
    (h : planCollections m a.descriptor settings = .ok sets) :
    List.Forall₂ (PhrasesCollection m db a.descriptor) a.descriptor.collections sets := by
  have hplanned := (List.forall₂_and_left _ _).mpr ⟨fun _ hc => hc, mapM_eq_ok_iff.mp h⟩
  exact hplanned.imp fun c set hset => phrasesCollection_of_planCollection hdb hsifts hset.1 hset.2

end Kept

/-! ## Analyzed entities -/

/-- The descriptor is planned, and its sets carry the phrases of all paths that were kept. -/
structure PhrasesPlan (m : Model) (db : Entity) (settings : Settings) (d : Descriptor)
    (own : Option TriggerSet) (sets : List TriggerSet) : Prop where
  planAll_eq : planAll m d settings = .ok (own.toList ++ sets)
  own_isSome : own.isSome = !d.attributes.isEmpty
  own : ∀ set, own = some set → PhrasesEntity m db d set
  collections : List.Forall₂ (PhrasesCollection m db d) d.collections sets

/-- No annotated path gets lost between the sources and the plan.  In the analysis, the paths that
lead somewhere are kept in their order and all others are noticed, once for each time that their
list is gone through.  Whatever was analyzed is planned, and each identifier and each label joins
one value for every path that was kept for it; it is absent exactly if none was. -/
theorem phrases_of_analyze {name : String} {a : Analysis} (h : analyze m name settings = .ok a)
    (settings' : Settings) :
    ∃ db merged findings given own sets,
      EndsIn m name db ∧ a.descriptor.entity = db.name ∧ mergeDirectives m db = .ok merged ∧
      SiftsPaths m db merged a findings given ∧
      PhrasesPlan m db settings' a.descriptor own sets := by
  obtain ⟨db, merged, findings, given, hends, hentity, hmerged, hsifts⟩ :=
    Tracking.siftsPaths_of_analyze h
  have hdb : m.get? a.descriptor.entity = some db := by rw [hentity, hends.registered]
  have htables := Tracking.tables_of_analyze h
  obtain ⟨own, hown, hsome⟩ := exists_planEntity htables settings'
  obtain ⟨sets, hsets, -⟩ := exists_planCollections htables settings'
  refine ⟨db, merged, findings, given, own, sets, hends, hentity, hmerged, hsifts, ?_⟩
  constructor
  case planAll_eq =>
    rw [planAll, hown, hsets]
    rfl
  case own_isSome => exact hsome
  case own =>
    rintro set rfl
    exact phrasesEntity_of_planEntity hdb hsifts hown
  case collections => exact phrasesCollections_of_planCollections hdb hsifts hsets

/-! ### Projects -/

namespace Projects

/-- Clients with a name. -/
def clients : Entity where
  name := "work.Clients"
  elements := [{ name := "ID", isKey := true }, { name := "name" }]

/-- Projects for a client, with tasks.  Some of the paths lead nowhere, and one of the paths of
the tasks does not begin there. -/
def projects : Entity where
  name := "work.Projects"
  elements := [
    { name := "ID", isKey := true }, { name := "title" },
    { name := "client", type := "cds.Association"
      association := some { kind := .reference, target := "work.Clients", keys := ["ID"] }
      directive := some (.paths ["client.name", "client.branch"]) },
    { name := "tasks", type := "cds.Composition"
      association := some {
        kind := .composition, target := "work.Tasks", many := true, on := [⟨"project_ID", "ID"⟩] }
      directive := some (.paths ["tasks.title", "deadline", "tasks.effort", "tasks.title"]) }]
  directive := some (.paths ["title", "budget", "client.name"])

/-- Tasks of a project. -/
def tasks : Entity where
  name := "work.Tasks"
  elements := [
    { name := "ID", isKey := true }, { name := "title", directive := some (.marker true) },
    { name := "project", type := "cds.Association"
      association := some { kind := .reference, target := "work.Projects", keys := ["ID"] } }]
  directive := some (.paths ["effort", "title"])

def model : Model where
  entities := NameMap.ofList ([clients, projects, tasks].map fun entity => (entity.name, entity))
  checked := by decide

/-- What is kept of the paths of an entity, and the notices of the others. -/
def outcome (a : Analysis) : List String × List String × List Tracking.Notice :=
  (a.descriptor.identity.map (·.path),
    (a.descriptor.collections.flatMap (·.identity) ++ a.descriptor.binding.toList.flatMap
      (·.identity)).map (·.path),
    a.warnings.filterMap Tracking.Warning.notice?)

/-- Of the paths of a project, four are given up, one of them for its tasks. -/
theorem phrases_projects : ∃ a, analyze model "work.Projects" {} = .ok a ∧
    outcome a = (["title", "client.name"], ["title", "title"], [
      ⟨"work.Projects", some "client", "client.branch"⟩,
      ⟨"work.Projects", some "tasks", "deadline"⟩, ⟨"work.Tasks", none, "effort"⟩,
      ⟨"work.Projects", none, "budget"⟩]) ∧
    ∃ db merged findings given own sets,
      EndsIn model "work.Projects" db ∧ a.descriptor.entity = db.name ∧
      mergeDirectives model db = .ok merged ∧ SiftsPaths model db merged a findings given ∧
      PhrasesPlan model db {} a.descriptor own sets := by
  have houtcome : (analyze model "work.Projects" {}).map outcome = .ok
      (["title", "client.name"], ["title", "title"], [
        ⟨"work.Projects", some "client", "client.branch"⟩,
        ⟨"work.Projects", some "tasks", "deadline"⟩, ⟨"work.Tasks", none, "effort"⟩,
        ⟨"work.Projects", none, "budget"⟩]) := by
    decide +kernel
  obtain ⟨a, ha, houtcome⟩ := map_eq_ok.mp houtcome
  exact ⟨a, ha, houtcome, phrases_of_analyze ha {}⟩

/-- Tasks are bound to projects, whose paths are gone through once more. -/
example : (analyze model "work.Tasks" {}).map outcome = .ok (["title"], ["title", "client.name"], [
    ⟨"work.Tasks", none, "effort"⟩, ⟨"work.Projects", none, "budget"⟩]) := by
  decide +kernel

end Projects

end ChangeTracking.Plan
