import ChangeTracking.Proofs.Tracking.Examinations

/-!
# Annotated paths in an analysis

The paths of a directive that lead somewhere are kept in their order, each as often as it is named.
Every other path is noticed once, each time that the list is gone through: the paths of an entity
when it is analyzed, and again when a child is bound to it or when it is collected by an owner
without paths of its own.
-/

namespace ChangeTracking.Tracking

open Schema (Association Element Entity Model)

variable {m : Model} {settings : Settings} {db : Entity} {merged : Merged} {element : Element}

/-! ## Notices -/

/-- A path that was given up, and where that was. -/
structure Notice where
  entity : String
  element : Option String
  path : String
  deriving DecidableEq, Repr

/-- What a warning says about a path, if it is about one. -/
def Warning.notice? (w : Warning) : Option Notice :=
  w.path.map fun path => ⟨w.entity, w.element, path⟩

/-- The paths that lead somewhere from `start`. -/
def keptPaths (m : Model) (start : Entity) (paths : List String) : List String :=
  paths.filter (resolves m start)

/-- A notice for each path that leads nowhere from `start`, on behalf of `element`. -/
def lostPaths (m : Model) (start : Entity) (element : Option String) (paths : List String) :
    List Notice :=
  (paths.filter fun path => !resolves m start path).map fun path => ⟨start.name, element, path⟩

theorem resolves_of_ok {start : Entity} {path : String} {route : Schema.Route}
    (h : m.route start path = .ok route) : resolves m start path = true := by
  rw [resolves, h]
  rfl

theorem not_resolves_of_error {start : Entity} {path : String} {deadEnd : Schema.DeadEnd}
    (h : m.route start path = .error deadEnd) : resolves m start path = false := by
  rw [resolves, h]
  rfl

/-- Whatever is kept leads somewhere. -/
theorem resolves_of_kept {start : Entity} {kept paths : List String}
    (h : kept = keptPaths m start paths) : ∀ path ∈ kept, resolves m start path = true := by
  rw [h]
  exact fun path hpath => (List.mem_filter.mp hpath).2

theorem map_path_identityFields (m : Model) (start : Entity) (paths : List String) :
    (identityFields m start paths).map (·.path) = keptPaths m start paths := by
  induction paths with
  | nil => rfl
  | cons path paths ih =>
      unfold identityFields keptPaths at ih ⊢
      cases hroute : m.route start path with
      | ok route =>
          rw [List.filter_cons_of_pos (resolves_of_ok hroute), ← ih]
          simp only [List.filterMap_cons, hroute, List.map_cons]
      | error deadEnd =>
          rw [List.filter_cons_of_neg (ne_true_of_eq_false (not_resolves_of_error hroute)), ← ih]
          simp only [List.filterMap_cons, hroute]

theorem notices_pathWarnings (m : Model) (start : Entity) (element : Option String)
    (paths : List String) :
    (pathWarnings m start element paths).filterMap Warning.notice? =
      lostPaths m start element paths := by
  induction paths with
  | nil => rfl
  | cons path paths ih =>
      unfold pathWarnings lostPaths at ih ⊢
      cases hroute : m.route start path with
      | ok route =>
          rw [List.filter_cons_of_neg (by simp [resolves_of_ok hroute]), ← ih]
          simp only [List.filterMap_cons, hroute]
      | error deadEnd =>
          rw [List.filter_cons_of_pos (by simp [not_resolves_of_error hroute]), List.map_cons, ← ih]
          simp only [List.filterMap_cons, hroute, Warning.notice?, Option.map_some]

/-- Warnings that are not about paths give no notice. -/
theorem notices_of_pathless {warnings : List Warning} (h : ∀ w ∈ warnings, w.path = none) :
    warnings.filterMap Warning.notice? = [] :=
  List.filterMap_eq_nil_iff.mpr fun w hw => by rw [Warning.notice?, h w hw, Option.map_none]

theorem notices_primaryKeyWarnings (db : Entity) :
    (primaryKeyWarnings db).filterMap Warning.notice? = [] :=
  notices_of_pathless (List.forall_mem_map.mpr fun _ _ => rfl)

/-! ## Paths of a collection -/

/-- The paths that begin with `start` are cut off there, and the others are foreign, both in their
order. -/
inductive Splits (start : String) : List String → List String → List String → Prop
  | nil : Splits start [] [] []
  | inside {paths relative foreign : List String} (rest : String)
      (h : Splits start paths relative foreign) :
      Splits start ((start ++ rest) :: paths) (rest :: relative) foreign
  | outside {paths relative foreign : List String} {path : String}
      (hpath : ∀ rest, path ≠ start ++ rest) (h : Splits start paths relative foreign) :
      Splits start (path :: paths) relative (path :: foreign)

/-- The paths that begin elsewhere than at the element. -/
def foreignPaths (element : Element) (paths : List String) : List String :=
  paths.filter fun path => (Text.after? (element.name ++ ".") path).isNone

theorem splits_relativePaths (element : Element) (paths : List String) :
    Splits (element.name ++ ".") paths (relativePaths element paths)
      (foreignPaths element paths) := by
  induction paths with
  | nil => exact .nil
  | cons path paths ih =>
      unfold relativePaths foreignPaths at ih ⊢
      cases hafter : Text.after? (element.name ++ ".") path with
      | some rest =>
          rw [List.filterMap_cons_some hafter, List.filter_cons_of_neg (by simp [hafter]),
            Text.after?_eq_some_iff.mp hafter]
          exact .inside rest ih
      | none =>
          rw [List.filterMap_cons_none hafter, List.filter_cons_of_pos (by simp [hafter])]
          refine .outside (fun rest hrest => ?_) ih
          rw [Text.after?_eq_some_iff.mpr hrest] at hafter
          cases hafter

theorem notices_foreignPathWarnings (root : Entity) (element : Element) (paths : List String) :
    (foreignPathWarnings root element paths).filterMap Warning.notice? =
      (foreignPaths element paths).map fun path => ⟨root.name, some element.name, path⟩ := by
  rw [foreignPathWarnings, foreignPaths, List.filterMap_map, ← List.filterMap_eq_map]
  rfl

/-- The paths that the children of a collection are told apart by: the relative ones, or without
these their own. -/
inductive Identifying (m : Model) (target : Entity) (relative : List String) : List String → Prop
  | relative (hrelative : relative ≠ []) : Identifying m target relative relative
  | own {merged : Merged} (hrelative : relative = [])
      (hmerged : mergeDirectives m target = .ok merged) :
      Identifying m target relative (annotatedPaths merged.entity)

theorem identifying_of_childPaths {target : Entity} {relative paths : List String}
    (h : childPaths m target relative = .ok paths) : Identifying m target relative paths := by
  unfold childPaths at h
  split at h
  · rename_i hempty
    obtain ⟨merged, hmerged, rfl⟩ := map_eq_ok.mp h
    exact .own (List.isEmpty_iff.mp hempty) hmerged
  · rename_i hne
    cases h
    exact .relative (mt List.isEmpty_iff.mpr hne)

/-! ## Elements -/

/-- What becomes of the paths at an element, and the notices of those given up there. -/
inductive Sifted (m : Model) (db : Entity) (merged : Merged) (element : Element) :
    Finding → List Notice → Prop
  /-- Nothing asks for the element, or there is nothing to record. -/
  | nothing (hleft : merged.asksFor element = false ∨
      isTrackable element = false ∧ isCollection element = false) :
      Sifted m db merged element .nothing []
  /-- It has a value of its own, and no labels. -/
  | plain {tracked : Attribute} (hassociation : element.association = none)
      (hname : tracked.name = element.name) (hlabels : tracked.labelPaths = []) :
      Sifted m db merged element (.single tracked) []
  /-- It is labelled by the paths that lead somewhere. -/
  | labels {tracked : Attribute} {association : Association}
      (hassociation : element.association = some association)
      (hname : tracked.name = element.name)
      (hlabels : tracked.labelPaths = keptPaths m db (merged.pathsOf element)) :
      Sifted m db merged element (.single tracked)
        (lostPaths m db (some element.name) (merged.pathsOf element))
  /-- The children that it collects are told apart by the paths that lead somewhere from them. -/
  | collection {c : Collection} {association : Association} {target : Entity}
      {relative foreign paths : List String}
      (hassociation : element.association = some association) (hname : c.element = element.name)
      (hends : EndsIn m association.target target) (htarget : c.target = target.name)
      (hsplits : Splits (element.name ++ ".") (merged.pathsOf element) relative foreign)
      (hpaths : Identifying m target relative paths)
      (hidentity : c.identity.map (·.path) = keptPaths m target paths) :
      Sifted m db merged element (.collection c)
        ((foreign.map fun path => ⟨db.name, some element.name, path⟩)
          ++ lostPaths m target none paths)

theorem Examined.sifted {finding : Finding} {warnings : List Warning}
    (h : Examined m db merged element finding warnings) :
    Sifted m db merged element finding (warnings.filterMap Warning.notice?) := by
  cases h with
  | unasked hasks => exact .nothing (.inl hasks)
  | refused hcollection htrackable hpathless =>
      rw [notices_of_pathless hpathless]
      exact .nothing (.inr ⟨htrackable, hcollection⟩)
  | plain hasks htrackable hassociation => exact .plain hassociation rfl rfl
  | related hasks htrackable hassociation =>
      rw [notices_pathWarnings]
      exact .labels hassociation rfl rfl
  | collected hcollection hassociation htarget hpaths hpathless =>
      rw [List.filterMap_append, List.filterMap_append, notices_foreignPathWarnings,
        notices_pathWarnings, notices_of_pathless hpathless, List.append_nil]
      exact .collection hassociation rfl htarget rfl (splits_relativePaths element _)
        (identifying_of_childPaths hpaths) (map_path_identityFields m _ _)

/-! ## Owners -/

/-- What becomes of the paths of the owner that an entity is bound to, and the notices of those
given up there. -/
inductive SiftedOwner (m : Model) : Option RootBinding → List Notice → Prop
  | unbound : SiftedOwner m none []
  | bound {b : RootBinding} {root : Entity} {merged : Merged} (hroot : m.get? b.root = some root)
      (hmerged : mergeDirectives m root = .ok merged)
      (hidentity : b.identity.map (·.path) = keptPaths m root (annotatedPaths merged.entity)) :
      SiftedOwner m (some b) (lostPaths m root none (annotatedPaths merged.entity))

theorem Rooted.sifted {binding : Option RootBinding} {warnings : List Warning}
    (h : Rooted m db binding warnings) :
    SiftedOwner m binding (warnings.filterMap Warning.notice?) := by
  cases h with
  | ownerless hparents => exact .unbound
  | unlinked hparents hlink => exact .unbound
  | linked hparents hlink hmerged =>
      obtain ⟨hroot, -⟩ := registered_of_mem_compositionParents (hparents ▸ List.mem_cons_self)
      rw [notices_pathWarnings]
      exact .bound hroot hmerged (map_path_identityFields m _ _)

/-! ## Entities -/

/-- No annotated path of the entity gets lost in the analysis: what is not kept is noticed, once for
each time that its list is gone through, and nothing else is. -/
structure SiftsPaths (m : Model) (db : Entity) (merged : Merged) (a : Analysis)
    (findings : List (Finding × List Notice)) (owner : List Notice) : Prop where
  elements : List.Forall₂ (fun element found => Sifted m db merged element found.1 found.2)
    db.elements findings
  attributes_eq : a.descriptor.attributes = findings.filterMap (·.1.attribute?)
  collections_eq : a.descriptor.collections = findings.filterMap (·.1.collection?)
  identity : a.descriptor.identity.map (·.path) = keptPaths m db (annotatedPaths merged.entity)
  binding : SiftedOwner m a.descriptor.binding owner
  notices : a.warnings.filterMap Warning.notice? =
    findings.flatMap (·.2) ++ lostPaths m db none (annotatedPaths merged.entity) ++ owner

section Kept

variable {a : Analysis} {findings : List (Finding × List Notice)} {owner : List Notice}
  (h : SiftsPaths m db merged a findings owner)
include h

/-- The labels of an attribute lead somewhere from the entity. -/
theorem SiftsPaths.resolves_labels {tracked : Attribute}
    (hmem : tracked ∈ a.descriptor.attributes) :
    ∀ path ∈ tracked.labelPaths, resolves m db path = true := by
  rw [h.attributes_eq] at hmem
  obtain ⟨⟨finding, notices⟩, hfound, htracked⟩ := List.mem_filterMap.mp hmem
  obtain ⟨element, -, hsifted⟩ := exists_of_mem_forall₂ h.elements hfound
  cases hsifted with
  | nothing hleft => cases htracked
  | plain hassociation hname hlabels =>
      cases htracked
      rw [hlabels]
      exact List.forall_mem_nil _
  | labels hassociation hname hlabels =>
      cases htracked
      exact resolves_of_kept hlabels
  | collection => cases htracked

/-- The paths of the children of a collection lead somewhere from them. -/
theorem SiftsPaths.resolves_collection {c : Collection} (hmem : c ∈ a.descriptor.collections) :
    ∃ target, m.get? c.target = some target ∧
      ∀ path ∈ c.identity.map (·.path), resolves m target path = true := by
  rw [h.collections_eq] at hmem
  obtain ⟨⟨finding, notices⟩, hfound, hc⟩ := List.mem_filterMap.mp hmem
  obtain ⟨element, -, hsifted⟩ := exists_of_mem_forall₂ h.elements hfound
  cases hsifted with
  | nothing hleft => cases hc
  | plain hassociation hname hlabels => cases hc
  | labels hassociation hname hlabels => cases hc
  | @collection c' association target relative foreign paths hassociation hname hends htarget
      hsplits hpaths hidentity =>
      cases hc
      exact ⟨target, htarget ▸ hends.registered, resolves_of_kept hidentity⟩

end Kept

/-- The paths of an owner lead somewhere from it. -/
theorem SiftedOwner.resolves {b : RootBinding} {notices : List Notice}
    (h : SiftedOwner m (some b) notices) :
    ∃ root, m.get? b.root = some root ∧
      ∀ path ∈ b.identity.map (·.path), resolves m root path = true := by
  cases h with
  | bound hroot hmerged hidentity => exact ⟨_, hroot, resolves_of_kept hidentity⟩

theorem siftsPaths_of_analyze {name : String} {a : Analysis}
    (h : analyze m name settings = .ok a) :
    ∃ db merged findings owner, EndsIn m name db ∧ a.descriptor.entity = db.name ∧
      mergeDirectives m db = .ok merged ∧ SiftsPaths m db merged a findings owner := by
  obtain ⟨requested, db, merged, findings, binding, warnings, hrequested, hdb, hmerged, hfindings,
    hbinding, -, rfl⟩ := eq_of_analyze h
  refine ⟨db, merged, findings.map fun found => (found.1, found.2.filterMap Warning.notice?),
    warnings.filterMap Warning.notice?, ⟨requested, hrequested, hdb⟩, rfl, hmerged, ?_⟩
  constructor
  case elements =>
    rw [List.forall₂_map_right_iff]
    exact (examined_of_mapM hfindings).imp fun _ _ hexamined => hexamined.sifted
  case attributes_eq => rw [List.filterMap_map]; rfl
  case collections_eq => rw [List.filterMap_map]; rfl
  case identity => exact map_path_identityFields m db _
  case binding => exact (rooted_of_rootBinding hbinding).sifted
  case notices =>
    dsimp only
    rw [List.filterMap_append, List.filterMap_append, List.filterMap_append,
      notices_primaryKeyWarnings, notices_pathWarnings, List.nil_append, List.filterMap_flatMap,
      List.flatMap_map]

end ChangeTracking.Tracking
