import ChangeTracking.Plan.Planning
import ChangeTracking.Proofs.Schema.Registered
import ChangeTracking.Proofs.Steps
import ChangeTracking.Proofs.Tracking.Analyses
import ChangeTracking.Script.Generation
import Mathlib.Data.List.Basic

/-!
# What planning reads from a model

A descriptor names paths, and planning follows them through the model.  All that it learns
there is, for every path, its route and the place of its translations.  So two models in
which the paths of a descriptor read alike yield the same plans and the same artifacts.
-/

namespace ChangeTracking.Plan

open Schema (DeadEnd Entity Model Route)
open Tracking (Attribute Collection Descriptor IdentityField RootBinding RootLink)

variable {m₁ m₂ : Model} {e₁ e₂ : Entity}

/-- The entity that holds the translations at the end of a route, and the key by which they
are found. -/
def translations (m : Model) (route : Route) : Option (Option String × List String) :=
  if route.isLocalized then
    (m.get? route.holder).map fun e => (e.texts, e.keyElements.map (·.name))
  else none

/-- What planning learns by following a path to its end. -/
structure PathReading where
  route : Route
  translations : Option (Option String × List String)
  deriving DecidableEq

/-- What planning learns by following a path from the entity called `start`. -/
def reading (m : Model) (start path : String) : Option (Except DeadEnd PathReading) :=
  (m.get? start).map fun e => (m.route e path).map fun route => ⟨route, translations m route⟩

/-- The paths that a descriptor names, each with the entity that it starts from. -/
def paths (d : Descriptor) : List (String × String) :=
  d.attributes.flatMap (fun a => a.labelPaths.map fun path => (d.entity, path))
    ++ d.identity.map (fun field => (d.entity, field.path))
    ++ d.binding.toList.flatMap (fun b => b.identity.map fun field => (b.root, field.path))
    ++ d.collections.flatMap (fun c => c.identity.map fun field => (c.target, field.path))

/-! ## Values -/

/-- The names of the key elements of the entity called `name`. -/
def keyNames (m : Model) (name : String) : Option (List String) :=
  (m.get? name).map fun e => e.keyElements.map (·.name)

theorem translation_row (m : Model) (holder texts column : String) (role : RowRole) :
    translation m holder texts column (.row role) =
      .lookup texts column (((keyNames m holder).getD []).map (fun name => (name, .column role name))
        ++ [("locale", .locale)]) := by
  rw [translation, keyNames]
  cases m.get? holder <;> simp

theorem translation_congr {holder texts column : String} {origin : Origin}
    (h : keyNames m₁ holder = keyNames m₂ holder) :
    translation m₁ holder texts column origin = translation m₂ holder texts column origin := by
  cases origin with
  | keyed entity filters => rfl
  | row role => rw [translation_row, translation_row, h]

theorem terminal_congr {route : Route} {origin : Origin} {column : String}
    (h : translations m₁ route = translations m₂ route) :
    terminal m₁ route origin column = terminal m₂ route origin column := by
  unfold terminal
  cases hlocalized : route.isLocalized with
  | false => rfl
  | true =>
      rw [translations, translations, hlocalized, if_pos rfl, if_pos rfl] at h
      have htexts : (m₁.get? route.holder).bind (·.texts) = (m₂.get? route.holder).bind (·.texts) := by
        have h := congrArg (·.bind Prod.fst) h
        simpa [Option.bind_map, Function.comp_def] using h
      have hkeys : keyNames m₁ route.holder = keyNames m₂ route.holder := by
        have h := congrArg (Option.map Prod.snd) h
        simpa [keyNames, Option.map_map, Function.comp_def] using h
      rw [htexts]
      simp only [translation_congr hkeys]

theorem routeValue_congr {route : Route} {origin : Origin}
    (h : translations m₁ route = translations m₂ route) :
    routeValue m₁ route origin = routeValue m₂ route origin := by
  simp only [routeValue, terminal_congr h]

/-- A path that reads alike leads alike from entities of one name, and to one value. -/
theorem route_congr {start path : String} (h₁ : m₁.get? start = some e₁)
    (h₂ : m₂.get? start = some e₂) (h : reading m₁ start path = reading m₂ start path) :
    m₁.route e₁ path = m₂.route e₂ path ∧
      ∀ route, m₂.route e₂ path = .ok route → translations m₁ route = translations m₂ route := by
  rw [reading, reading, h₁, h₂, Option.map_some, Option.map_some, Option.some.injEq] at h
  -- Readings tell a route from a dead end, so two that are alike are of one kind.
  cases hroute₁ : m₁.route e₁ path with
  | error deadEnd₁ =>
      cases hroute₂ : m₂.route e₂ path with
      | error deadEnd₂ =>
          rw [hroute₁, hroute₂] at h
          cases h
          exact ⟨rfl, fun route hroute => by cases hroute⟩
      | ok route₂ =>
          rw [hroute₁, hroute₂] at h
          cases h
  | ok route₁ =>
      cases hroute₂ : m₂.route e₂ path with
      | error deadEnd₂ =>
          rw [hroute₁, hroute₂] at h
          cases h
      | ok route₂ =>
          rw [hroute₁, hroute₂] at h
          simp only [Except.map, Except.ok.injEq, PathReading.mk.injEq] at h
          obtain ⟨rfl, htranslations⟩ := h
          refine ⟨rfl, fun route hroute => ?_⟩
          cases hroute
          exact htranslations

theorem pathValue_congr {start path : String} {origin : Origin} (h₁ : m₁.get? start = some e₁)
    (h₂ : m₂.get? start = some e₂) (h : reading m₁ start path = reading m₂ start path) :
    pathValue m₁ e₁ path origin = pathValue m₂ e₂ path origin := by
  obtain ⟨hroute, htranslations⟩ := route_congr h₁ h₂ h
  rw [pathValue, pathValue, hroute]
  cases hend : m₂.route e₂ path with
  | error deadEnd => rfl
  | ok route => rw [Except.map, Except.map, routeValue_congr (htranslations route hend)]

theorem phrase_congr {start : String} {ps : List (String × Origin)}
    (h₁ : m₁.get? start = some e₁) (h₂ : m₂.get? start = some e₂)
    (h : ∀ p ∈ ps, reading m₁ start p.1 = reading m₂ start p.1) :
    phrase m₁ e₁ ps = phrase m₂ e₂ ps := by
  have hvalues : (ps.filterMap fun p => (pathValue m₁ e₁ p.1 p.2).toOption) =
      ps.filterMap fun p => (pathValue m₂ e₂ p.1 p.2).toOption :=
    List.filterMap_congr fun p hp => by rw [pathValue_congr h₁ h₂ (h p hp)]
  rw [phrase, phrase, hvalues]

theorem label_congr {start : String} {labelPaths : List String} {origin : Origin}
    (h₁ : m₁.get? start = some e₁) (h₂ : m₂.get? start = some e₂)
    (h : ∀ path ∈ labelPaths, reading m₁ start path = reading m₂ start path) :
    label m₁ e₁ labelPaths origin = label m₂ e₂ labelPaths origin := by
  apply phrase_congr h₁ h₂
  intro p hp
  obtain ⟨path, hpath, rfl⟩ := List.mem_map.mp hp
  exact h path hpath

theorem identifier_congr {start : String} {fields : List IdentityField} {key : List String}
    {origin : Origin} (h₁ : m₁.get? start = some e₁) (h₂ : m₂.get? start = some e₂)
    (h : ∀ field ∈ fields, reading m₁ start field.path = reading m₂ start field.path) :
    identifier m₁ e₁ fields key origin = identifier m₂ e₂ fields key origin := by
  have hname : e₁.name = e₂.name := by
    rw [Model.name_of_get? h₁, Model.name_of_get? h₂]
  have hfields : (fields.map fun field => (field.path, fieldOrigin m₁ e₁ key origin field)) =
      fields.map fun field => (field.path, fieldOrigin m₂ e₂ key origin field) := by
    refine List.map_congr_left fun field hfield => ?_
    rw [fieldOrigin, fieldOrigin, (route_congr h₁ h₂ (h field hfield)).1, hname]
  rw [identifier, identifier, hfields]
  apply phrase_congr h₁ h₂
  intro p hp
  obtain ⟨field, hfield, rfl⟩ := List.mem_map.mp hp
  exact h field hfield

/-! ## Plans -/

theorem attributeColumn_congr {start : String} {a : Attribute} (h₁ : m₁.get? start = some e₁)
    (h₂ : m₂.get? start = some e₂)
    (h : ∀ path ∈ a.labelPaths, reading m₁ start path = reading m₂ start path) :
    attributeColumn m₁ e₁ a = attributeColumn m₂ e₂ a := by
  rw [attributeColumn, attributeColumn, label_congr h₁ h₂ h, Model.name_of_get? h₁,
    Model.name_of_get? h₂]

theorem owner_congr {child rootName : String} {childKey : List String} {link : RootLink}
    {fields : List IdentityField} (h₁ : m₁.get? rootName = some e₁)
    (h₂ : m₂.get? rootName = some e₂)
    (h : ∀ field ∈ fields, reading m₁ rootName field.path = reading m₂ rootName field.path) :
    owner m₁ child childKey rootName link fields = owner m₂ child childKey rootName link fields := by
  rw [owner, owner, Model.entity_eq_ok_iff.mpr h₁, Model.entity_eq_ok_iff.mpr h₂]
  simp only [bind, Except.bind, identifier_congr h₁ h₂ h, Model.name_of_get? h₁,
    Model.name_of_get? h₂]

/-- In both models the paths of a descriptor read alike, and its tables are there. -/
structure ReadAlike (m₁ m₂ : Model) (d : Descriptor) : Prop where
  tables : ∀ table ∈ d.tables, ∃ e₁ e₂, m₁.get? table = some e₁ ∧ m₂.get? table = some e₂
  paths : ∀ p ∈ paths d, reading m₁ p.1 p.2 = reading m₂ p.1 p.2

namespace ReadAlike

variable {d : Descriptor}

theorem label (h : ReadAlike m₁ m₂ d) {a : Attribute} (ha : a ∈ d.attributes) :
    ∀ path ∈ a.labelPaths, reading m₁ d.entity path = reading m₂ d.entity path := by
  intro path hpath
  refine h.paths (d.entity, path) ?_
  simp only [Plan.paths, List.mem_append, List.mem_flatMap]
  exact .inl (.inl (.inl ⟨a, ha, List.mem_map_of_mem hpath⟩))

theorem identity (h : ReadAlike m₁ m₂ d) :
    ∀ field ∈ d.identity, reading m₁ d.entity field.path = reading m₂ d.entity field.path := by
  intro field hfield
  refine h.paths (d.entity, field.path) ?_
  simp only [Plan.paths, List.mem_append]
  exact .inl (.inl (.inr (List.mem_map.mpr ⟨field, hfield, rfl⟩)))

theorem rootIdentity (h : ReadAlike m₁ m₂ d) {b : RootBinding} (hb : d.binding = some b) :
    ∀ field ∈ b.identity, reading m₁ b.root field.path = reading m₂ b.root field.path := by
  intro field hfield
  refine h.paths (b.root, field.path) ?_
  simp only [Plan.paths, List.mem_append, List.mem_flatMap]
  exact .inl (.inr ⟨b, Option.mem_toList.mpr hb, List.mem_map.mpr ⟨field, hfield, rfl⟩⟩)

theorem childIdentity (h : ReadAlike m₁ m₂ d) {c : Collection} (hc : c ∈ d.collections) :
    ∀ field ∈ c.identity, reading m₁ c.target field.path = reading m₂ c.target field.path := by
  intro field hfield
  refine h.paths (c.target, field.path) ?_
  simp only [Plan.paths, List.mem_append, List.mem_flatMap]
  exact .inr ⟨c, hc, List.mem_map.mpr ⟨field, hfield, rfl⟩⟩

theorem planEntity_eq (h : ReadAlike m₁ m₂ d) (settings : Settings) :
    planEntity m₁ d settings = planEntity m₂ d settings := by
  obtain ⟨e₁, e₂, h₁, h₂⟩ := h.tables d.entity List.mem_cons_self
  have howner : (d.binding.mapM fun b => owner m₁ d.entity d.primaryKey b.root b.link b.identity) =
      d.binding.mapM fun b => owner m₂ d.entity d.primaryKey b.root b.link b.identity := by
    cases hb : d.binding with
    | none => simp only [Option.mapM_none]
    | some b =>
        have hroot : b.root ∈ d.tables := by
          simp [Descriptor.tables, hb]
        obtain ⟨r₁, r₂, hr₁, hr₂⟩ := h.tables b.root hroot
        simp only [Option.mapM_some, owner_congr hr₁ hr₂ (h.rootIdentity hb)]
  have hcolumns : d.attributes.map (attributeColumn m₁ e₁) =
      d.attributes.map (attributeColumn m₂ e₂) :=
    List.map_congr_left fun a ha => attributeColumn_congr h₁ h₂ (h.label ha)
  unfold planEntity
  split
  · rfl
  · rw [Model.entity_eq_ok_iff.mpr h₁, Model.entity_eq_ok_iff.mpr h₂, howner]
    simp only [bind, Except.bind, hcolumns, identifier_congr h₁ h₂ h.identity]

theorem planCollection_eq (h : ReadAlike m₁ m₂ d) (settings : Settings) {c : Collection}
    (hc : c ∈ d.collections) :
    planCollection m₁ d settings c = planCollection m₂ d settings c := by
  have htarget : c.target ∈ d.tables := by
    simp only [Descriptor.tables, List.mem_cons, List.mem_append]
    exact .inr (.inr (List.mem_map_of_mem hc))
  obtain ⟨t₁, t₂, ht₁, ht₂⟩ := h.tables c.target htarget
  obtain ⟨e₁, e₂, h₁, h₂⟩ := h.tables d.entity List.mem_cons_self
  have howner : ∀ link, owner m₁ c.target c.targetKeys d.entity link d.identity =
      owner m₂ c.target c.targetKeys d.entity link d.identity := fun link =>
    owner_congr h₁ h₂ h.identity
  unfold planCollection
  rw [Model.entity_eq_ok_iff.mpr ht₁, Model.entity_eq_ok_iff.mpr ht₂]
  simp only [bind, Except.bind, identifier_congr ht₁ ht₂ (h.childIdentity hc),
    Model.name_of_get? ht₁, Model.name_of_get? ht₂, howner]

theorem planCollections_eq (h : ReadAlike m₁ m₂ d) (settings : Settings) :
    planCollections m₁ d settings = planCollections m₂ d settings :=
  mapM_congr fun _ hc => h.planCollection_eq settings hc

theorem entityArtifacts_eq (h : ReadAlike m₁ m₂ d) (g : Script.Generator) (settings : Settings) :
    g.entityArtifacts m₁ d settings = g.entityArtifacts m₂ d settings := by
  rw [Script.Generator.entityArtifacts, Script.Generator.entityArtifacts,
    h.planEntity_eq settings, h.planCollections_eq settings]

end ReadAlike

end ChangeTracking.Plan
