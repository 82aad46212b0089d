import ChangeTracking.Proofs.NameMaps
import ChangeTracking.Proofs.Schema.Registered
import ChangeTracking.Tracking.Analysis

/-!
# What analysis yields

An analysis that succeeds was put together from steps that succeeded.  So the entities
that its descriptor names are entities of the model, and the analyses of a whole model
have different entities.
-/

namespace ChangeTracking.Tracking

open Schema (AssociationKind Association Directive Element Entity Model)

variable {m : Model} {settings : Settings}

/-! ## One entity -/

/-- The steps of an analysis that succeeds, and what is put together from them.  An entity without
a key has nothing tracked. -/
theorem eq_of_analyze {name : String} {a : Analysis} (h : analyze m name settings = .ok a) :
    ∃ requested db merged findings binding warnings,
      m.get? name = some requested ∧ m.databaseEntity requested = .ok db ∧
      mergeDirectives m db = .ok merged ∧ db.elements.mapM (examine m db merged) = .ok findings ∧
      rootBinding m db settings = .ok (binding, warnings) ∧
      (a.descriptor.attributes ≠ [] ∨ a.descriptor.collections ≠ [] →
        a.descriptor.primaryKey ≠ []) ∧
      a = {
        descriptor := {
          entity := db.name
          service := if requested.isProjection then some requested.name else merged.service
          primaryKey := primaryKey db
          attributes := findings.filterMap (·.1.attribute?)
          identity := identityFields m db (annotatedPaths merged.entity)
          collections := findings.filterMap (·.1.collection?)
          binding := binding }
        warnings := primaryKeyWarnings db ++ findings.flatMap (·.2)
          ++ pathWarnings m db none (annotatedPaths merged.entity) ++ warnings } := by
  rw [analyze, bind_eq_ok] at h
  obtain ⟨requested, hrequested, h⟩ := h
  obtain ⟨db, hdb, h⟩ := bind_eq_ok.mp h
  obtain ⟨merged, hmerged, h⟩ := bind_eq_ok.mp h
  obtain ⟨findings, hfindings, h⟩ := bind_eq_ok.mp h
  obtain ⟨⟨binding, warnings⟩, hbinding, h⟩ := bind_eq_ok.mp h
  -- The only step left refuses an entity without a key.
  dsimp only at h
  split at h
  · cases h
  · rename_i hkey
    cases h
    refine ⟨requested, db, merged, findings, binding, warnings,
      Model.entity_eq_ok_iff.mp hrequested, hdb, hmerged, hfindings, hbinding, ?_, rfl⟩
    intro htracked hnil
    have hnil : primaryKey db = [] := hnil
    simp only [hnil, List.isEmpty_nil, Bool.true_and, Bool.not_eq_true', Bool.not_eq_false,
      Bool.and_eq_true, List.isEmpty_iff] at hkey
    exact htracked.elim (fun hne => hne hkey.1) (fun hne => hne hkey.2)

/-- The steps of an analysis that succeeds. -/
theorem steps_of_analyze {name : String} {a : Analysis} (h : analyze m name settings = .ok a) :
    ∃ requested db merged findings binding warnings,
      m.get? name = some requested ∧ m.databaseEntity requested = .ok db ∧
      mergeDirectives m db = .ok merged ∧ db.elements.mapM (examine m db merged) = .ok findings ∧
      rootBinding m db settings = .ok (binding, warnings) ∧
      a.descriptor = {
        entity := db.name
        service := if requested.isProjection then some requested.name else merged.service
        primaryKey := primaryKey db
        attributes := findings.filterMap (·.1.attribute?)
        identity := identityFields m db (annotatedPaths merged.entity)
        collections := findings.filterMap (·.1.collection?)
        binding := binding } := by
  obtain ⟨requested, db, merged, findings, binding, warnings, hrequested, hdb, hmerged, hfindings,
    hbinding, -, rfl⟩ := eq_of_analyze h
  exact ⟨requested, db, merged, findings, binding, warnings, hrequested, hdb, hmerged, hfindings,
    hbinding, rfl⟩

/-- An entity without a key has nothing tracked. -/
theorem primaryKey_ne_nil_of_analyze {name : String} {a : Analysis}
    (h : analyze m name settings = .ok a)
    (htracked : a.descriptor.attributes ≠ [] ∨ a.descriptor.collections ≠ []) :
    a.descriptor.primaryKey ≠ [] := by
  obtain ⟨_, _, _, _, _, _, -, -, -, -, -, hkey, -⟩ := eq_of_analyze h
  exact hkey htracked

/-! ## Findings -/

/-- The element is tracked as the attribute: by its own value, or as a to-one association
by its foreign keys or by the terms of its condition. -/
inductive TrackedAs (m : Model) (db : Entity) (element : Element) : Attribute → Prop
  | plain (hassociation : element.association = none) :
      TrackedAs m db element (plainAttribute element)
  | relation {association : Association} (paths : List String)
      (hassociation : element.association = some association)
      (hcolumns : element.foreignKeyColumns ≠ [] ∨ onPairs element ≠ []) :
      TrackedAs m db element (relationAttribute m db element association paths)

/-- An association is compared by its foreign keys, or else by the columns of its condition. -/
theorem watched_relationAttribute (m : Model) (db : Entity) (element : Element)
    (association : Association) (paths : List String) :
    (relationAttribute m db element association paths).watched =
      if element.foreignKeyColumns.isEmpty then (onPairs element).map (·.source)
      else element.foreignKeyColumns := by
  cases hkind : association.kind <;>
    simp +contextual [Attribute.watched, relationAttribute, relationOf, hkind]

/-- The element is tracked as the collection of the records of `target`. -/
def CollectedAs (m : Model) (db : Entity) (element : Element) (c : Collection) : Prop :=
  ∃ target paths, m.get? target.name = some target ∧ target.projectionOf = none ∧
    c = {
      element := element.name
      target := target.name
      targetKeys := primaryKey target
      identity := identityFields m target paths
      link := rootLink target db }

/-- The element has a value that may be recorded with the row: one of its own, or for an
association to one record the columns that lead there. -/
def isTrackable (element : Element) : Bool :=
  element.foreignKeyOf.isNone && !element.isPersonal && !element.isVirtual &&
    element.association.all fun association =>
      !association.many && (!element.foreignKeyColumns.isEmpty || !association.on.isEmpty)

theorem isTrackable_iff {element : Element} :
    isTrackable element = true ↔
      element.foreignKeyOf = none ∧ element.isPersonal = false ∧ element.isVirtual = false ∧
        ∀ association, element.association = some association →
          association.many = false ∧ (element.foreignKeyColumns ≠ [] ∨ onPairs element ≠ []) := by
  unfold isTrackable onPairs
  cases element.association with
  | none => simp [and_assoc]
  | some association => simp [and_assoc]

/-- What is found at an element that is no collection, and what is warned about. -/
inductive ExaminedAttribute (m : Model) (db : Entity) (element : Element) (paths : List String) :
    Finding → List Warning → Prop
  /-- It is a column of an association. -/
  | shadow (hshadow : element.foreignKeyOf.isSome = true) :
      ExaminedAttribute m db element paths .nothing []
  /-- There is no value to record. -/
  | refused {reason : String} (hown : element.foreignKeyOf = none)
      (htrackable : isTrackable element = false) :
      ExaminedAttribute m db element paths .nothing [⟨db.name, some element.name, none, reason⟩]
  /-- It is tracked by its own value. -/
  | plain (htrackable : isTrackable element = true) (hassociation : element.association = none) :
      ExaminedAttribute m db element paths (.single (plainAttribute element)) []
  /-- It is tracked by the columns of its association. -/
  | related {association : Association} (htrackable : isTrackable element = true)
      (hassociation : element.association = some association) :
      ExaminedAttribute m db element paths
        (.single (relationAttribute m db element association paths))
        (pathWarnings m db (some element.name) paths)

theorem examinedAttribute (m : Model) (db : Entity) (element : Element) (directive : Directive) :
    ExaminedAttribute m db element directive.pathList
      (examineAttribute m db element directive).1 (examineAttribute m db element directive).2 := by
  unfold examineAttribute
  dsimp only
  -- Each refusal contradicts one part of what makes an element trackable.
  split
  · rename_i hshadow
    exact .shadow hshadow
  · rename_i hshadow
    have hown : element.foreignKeyOf = none := by simpa using hshadow
    split
    · rename_i hpersonal
      exact .refused hown (by simp [isTrackable, hpersonal])
    · rename_i hpersonal
      split
      · rename_i hvirtual
        exact .refused hown (by simp [isTrackable, hvirtual])
      · rename_i hvirtual
        have hpersonal : element.isPersonal = false := Bool.eq_false_iff.mpr hpersonal
        have hvirtual : element.isVirtual = false := Bool.eq_false_iff.mpr hvirtual
        split
        · rename_i hnone
          exact .plain (isTrackable_iff.mpr ⟨hown, hpersonal, hvirtual, by simp [hnone]⟩) hnone
        · rename_i association hassociation
          split
          · rename_i hmany
            exact .refused hown (by simp [isTrackable, hassociation, hmany])
          · rename_i hmany
            split
            · rename_i hcolumns
              rw [Bool.and_eq_true, List.isEmpty_iff, List.isEmpty_iff] at hcolumns
              refine .refused hown (Bool.eq_false_iff.mpr fun htrackable => ?_)
              obtain ⟨-, -, -, hto⟩ := isTrackable_iff.mp htrackable
              exact (hto association hassociation).2.elim (absurd hcolumns.1) (absurd hcolumns.2)
            · rename_i hcolumns
              refine .related (isTrackable_iff.mpr ⟨hown, hpersonal, hvirtual, ?_⟩) hassociation
              intro association' h
              cases hassociation.symm.trans h
              exact ⟨Bool.eq_false_iff.mpr hmany,
                by simpa [Decidable.or_iff_not_imp_left] using hcolumns⟩

theorem trackedAs_of_examineAttribute {db : Entity} {element : Element} {directive : Directive}
    {a : Attribute} (h : (examineAttribute m db element directive).1.attribute? = some a) :
    element.isPersonal = false ∧ TrackedAs m db element a := by
  have hexamined := examinedAttribute m db element directive
  generalize examineAttribute m db element directive = found at h hexamined
  obtain ⟨finding, warnings⟩ := found
  cases hexamined with
  | shadow hshadow => cases h
  | refused hown htrackable => cases h
  | plain htrackable hassociation =>
      cases h
      exact ⟨(isTrackable_iff.mp htrackable).2.1, .plain hassociation⟩
  | related htrackable hassociation =>
      cases h
      obtain ⟨-, hpersonal, -, hcolumns⟩ := isTrackable_iff.mp htrackable
      exact ⟨hpersonal, .relation _ hassociation (hcolumns _ hassociation).2⟩

theorem collection?_examineAttribute (db : Entity) (element : Element) (directive : Directive) :
    (examineAttribute m db element directive).1.collection? = none := by
  have hexamined := examinedAttribute m db element directive
  generalize examineAttribute m db element directive = found at hexamined
  obtain ⟨finding, warnings⟩ := found
  cases hexamined <;> rfl

theorem collectedAs_of_examineCollection {db : Entity} {element : Element}
    {association : Association} {directive : Directive} {finding : Finding × List Warning}
    (h : examineCollection m db element association directive = .ok finding) :
    ∃ c, finding.1 = .collection c ∧ CollectedAs m db element c := by
  rw [examineCollection, bind_eq_ok] at h
  obtain ⟨next, hnext, h⟩ := h
  obtain ⟨target, htarget, h⟩ := bind_eq_ok.mp h
  obtain ⟨paths, hpaths, h⟩ := bind_eq_ok.mp h
  cases h
  obtain ⟨hget, hprojection⟩ :=
    Model.get?_databaseEntity (Model.entity_eq_ok_iff.mp hnext) htarget
  exact ⟨_, rfl, target, paths, hget, hprojection, rfl⟩

/-- An element contributes nothing, an attribute or a collection. -/
theorem examine_cases {db : Entity} {merged : Merged} {element : Element}
    {finding : Finding × List Warning} (h : examine m db merged element = .ok finding) :
    finding.1 = .nothing ∨
      (∃ directive, finding = examineAttribute m db element directive) ∨
      ∃ c, finding.1 = .collection c ∧ CollectedAs m db element c := by
  unfold examine at h
  split at h
  · cases h
    exact .inl rfl
  · rename_i declared _
    split at h
    · cases h
      exact .inl rfl
    · split at h
      · split at h
        · exact .inr (.inr (collectedAs_of_examineCollection h))
        · cases h
          exact .inr (.inl ⟨_, rfl⟩)
      · cases h
        exact .inr (.inl ⟨_, rfl⟩)

theorem trackedAs_of_examine {db : Entity} {merged : Merged} {element : Element} {a : Attribute}
    {finding : Finding × List Warning} (h : examine m db merged element = .ok finding)
    (ha : finding.1.attribute? = some a) :
    element.isPersonal = false ∧ TrackedAs m db element a := by
  rcases examine_cases h with hnothing | ⟨directive, rfl⟩ | ⟨c, hcollection, -⟩
  · rw [hnothing] at ha
    cases ha
  · exact trackedAs_of_examineAttribute ha
  · rw [hcollection] at ha
    cases ha

theorem collectedAs_of_examine {db : Entity} {merged : Merged} {element : Element} {c : Collection}
    {finding : Finding × List Warning} (h : examine m db merged element = .ok finding)
    (hc : finding.1.collection? = some c) : CollectedAs m db element c := by
  rcases examine_cases h with hnothing | ⟨directive, rfl⟩ | ⟨c', hcollection, hcollected⟩
  · rw [hnothing] at hc
    cases hc
  · rw [collection?_examineAttribute] at hc
    cases hc
  · rw [hcollection] at hc
    cases hc
    exact hcollected

/-- An analysis keeps what it finds of the elements of its database entity. -/
theorem findings_of_analyze {name : String} {a : Analysis} (h : analyze m name settings = .ok a) :
    ∃ db merged findings, m.get? a.descriptor.entity = some db ∧ db.projectionOf = none ∧
      db.elements.mapM (examine m db merged) = .ok findings ∧
      a.descriptor.attributes = findings.filterMap (·.1.attribute?) ∧
      a.descriptor.collections = findings.filterMap (·.1.collection?) := by
  obtain ⟨requested, db, merged, findings, _, _, hrequested, hdb, -, hfindings, -, hdescriptor⟩ :=
    steps_of_analyze h
  obtain ⟨hget, hprojection⟩ := Model.get?_databaseEntity hrequested hdb
  rw [hdescriptor]
  exact ⟨db, merged, findings, hget, hprojection, hfindings, rfl, rfl⟩

/-- A tracked attribute is made of an element of the entity that is not personal data. -/
theorem trackedAs_of_mem_attributes {name : String} {a : Analysis}
    (h : analyze m name settings = .ok a) {tracked : Attribute}
    (hmem : tracked ∈ a.descriptor.attributes) :
    ∃ db element, m.get? a.descriptor.entity = some db ∧ element ∈ db.elements ∧
      element.isPersonal = false ∧ TrackedAs m db element tracked := by
  obtain ⟨db, merged, findings, hget, -, hfindings, hattributes, -⟩ := findings_of_analyze h
  rw [hattributes] at hmem
  obtain ⟨finding, hfinding, ha⟩ := List.mem_filterMap.mp hmem
  obtain ⟨element, helement, hexamine⟩ := exists_of_mem_mapM hfindings hfinding
  exact ⟨db, element, hget, helement, trackedAs_of_examine hexamine ha⟩

/-- A tracked collection is made of an element of the entity. -/
theorem collectedAs_of_mem_collections {name : String} {a : Analysis}
    (h : analyze m name settings = .ok a) {c : Collection}
    (hmem : c ∈ a.descriptor.collections) :
    ∃ db element, m.get? a.descriptor.entity = some db ∧ element ∈ db.elements ∧
      CollectedAs m db element c := by
  obtain ⟨db, merged, findings, hget, -, hfindings, -, hcollections⟩ := findings_of_analyze h
  rw [hcollections] at hmem
  obtain ⟨finding, hfinding, hc⟩ := List.mem_filterMap.mp hmem
  obtain ⟨element, helement, hexamine⟩ := exists_of_mem_mapM hfindings hfinding
  exact ⟨db, element, hget, helement, collectedAs_of_examine hexamine hc⟩

theorem sublist_of_mapM_examine {db : Entity} {merged : Merged} {elements : List Element}
    {findings : List (Finding × List Warning)}
    (h : elements.mapM (examine m db merged) = .ok findings) :
    ((findings.filterMap (·.1.collection?)).map (·.element)).Sublist (elements.map (·.name)) := by
  rw [mapM_eq_ok_iff] at h
  induction h with
  | nil => exact List.Sublist.refl _
  | @cons element finding elements findings hfinding _ ih =>
      cases hc : finding.1.collection? with
      | none =>
          simp only [List.filterMap_cons, hc, List.map_cons]
          exact ih.cons _
      | some c =>
          obtain ⟨_, _, -, -, rfl⟩ := collectedAs_of_examine hfinding hc
          simp only [List.filterMap_cons, hc, List.map_cons]
          exact ih.cons_cons _

/-- The collections of an entity stand for different elements of it, in their order. -/
theorem sublist_of_analyze {name : String} {a : Analysis} (h : analyze m name settings = .ok a) :
    ∃ db, m.get? a.descriptor.entity = some db ∧ db.projectionOf = none ∧
      (a.descriptor.collections.map (·.element)).Sublist (db.elements.map (·.name)) := by
  obtain ⟨db, merged, findings, hget, hprojection, hfindings, -, hcollections⟩ :=
    findings_of_analyze h
  rw [hcollections]
  exact ⟨db, hget, hprojection, sublist_of_mapM_examine hfindings⟩

/-! ## Owners -/

/-- A child is linked by the foreign keys of the first reference to the root, or else by the
condition of the back reference. -/
theorem rootLink_cases {child root : Entity} {link : RootLink}
    (h : rootLink child root = some link) :
    (∃ element ∈ child.elements, refersTo root element = true ∧
      link = .foreignKeys (keyPairs element)) ∨
    ∃ element, child.element? backReferenceName = some element ∧ onPairs element ≠ [] ∧
      link = .backReference element.name (onPairs element) := by
  unfold rootLink at h
  split at h
  · rename_i element hfind
    cases h
    exact .inl ⟨element, List.mem_of_find?_eq_some hfind, List.find?_some hfind, rfl⟩
  · split at h
    · cases h
    · rename_i element helement
      split at h
      · cases h
      · rename_i hterms
        cases h
        exact .inr ⟨element, helement, fun hnil => hterms (List.isEmpty_iff.mpr hnil), rfl⟩

/-- The link of a child to its owner names columns. -/
theorem joins_ne_nil_of_rootLink {child root : Entity} {link : RootLink}
    (h : rootLink child root = some link) : link.joins ≠ [] := by
  rcases rootLink_cases h with ⟨element, -, hrefers, rfl⟩ | ⟨element, -, hterms, rfl⟩
  · unfold refersTo at hrefers
    split at hrefers
    · cases hrefers
    · rename_i association hassociation
      simp only [Bool.and_eq_true, Association.isManaged, Bool.not_eq_true',
        List.isEmpty_eq_false_iff] at hrefers
      simp [RootLink.joins, keyPairs, hassociation, Element.foreignKeyColumns, hrefers.2]
  · exact hterms

/-- The owners of compositions are entities of the model, and own tables. -/
theorem registered_of_mem_compositionParents {child : String} {owner : Entity × Element}
    (h : owner ∈ m.compositionParents child) :
    m.get? owner.1.name = some owner.1 ∧ owner.1.projectionOf = none := by
  obtain ⟨entity, hentity, hmem⟩ := List.mem_flatMap.mp h
  obtain ⟨_, -, rfl⟩ := List.mem_map.mp hmem
  obtain ⟨hall, hprojection⟩ := List.mem_filter.mp hentity
  exact ⟨Model.get?_of_mem_all hall, by simpa [Entity.isProjection] using hprojection⟩

/-- What becomes of the link of an entity to its owner, and what is warned about. -/
inductive Rooted (m : Model) (db : Entity) : Option RootBinding → List Warning → Prop
  /-- Nothing owns the records. -/
  | ownerless (hparents : m.compositionParents db.name = []) : Rooted m db none []
  /-- There is no link to the owner. -/
  | unlinked {root : Entity} {element : Element} {rest : List (Entity × Element)} {reason : String}
      (hparents : m.compositionParents db.name = (root, element) :: rest)
      (hlink : rootLink db root = none) : Rooted m db none [⟨db.name, none, none, reason⟩]
  /-- The records are bound to their first owner, by the paths of it that can be resolved. -/
  | linked {root : Entity} {element : Element} {rest : List (Entity × Element)} {link : RootLink}
      {merged : Merged} (hparents : m.compositionParents db.name = (root, element) :: rest)
      (hlink : rootLink db root = some link) (hmerged : mergeDirectives m root = .ok merged) :
      Rooted m db (some ⟨root.name, link, identityFields m root (annotatedPaths merged.entity)⟩)
        (pathWarnings m root none (annotatedPaths merged.entity))

theorem rooted_of_rootBinding {db : Entity} {binding : Option RootBinding} {warnings : List Warning}
    (h : rootBinding m db settings = .ok (binding, warnings)) : Rooted m db binding warnings := by
  unfold rootBinding at h
  split at h
  · rename_i hparents
    cases h
    exact .ownerless hparents
  · rename_i root element rest hparents
    split at h
    · rename_i hlink
      split at h
      · cases h
      · cases h
        exact .unlinked hparents hlink
    · rename_i link hlink
      obtain ⟨merged, hmerged, h⟩ := bind_eq_ok.mp h
      cases h
      exact .linked hparents hlink hmerged

/-- The owner that a child is bound to owns a table; the child is linked to it, and knows the
paths of its object identifier. -/
theorem root_of_rootBinding {db : Entity} {b : RootBinding} {warnings : List Warning}
    (h : rootBinding m db settings = .ok (some b, warnings)) :
    ∃ root merged, m.get? b.root = some root ∧ root.projectionOf = none ∧
      rootLink db root = some b.link ∧ mergeDirectives m root = .ok merged ∧
      b.identity = identityFields m root (annotatedPaths merged.entity) := by
  cases rooted_of_rootBinding h with
  | linked hparents hlink hmerged =>
      obtain ⟨hroot, hprojection⟩ :=
        registered_of_mem_compositionParents (hparents ▸ List.mem_cons_self)
      exact ⟨_, _, hroot, hprojection, hlink, hmerged, rfl⟩

/-- A bound child has a link to its owner. -/
theorem link_of_binding {name : String} {a : Analysis} (h : analyze m name settings = .ok a)
    {b : RootBinding} (hb : a.descriptor.binding = some b) :
    ∃ db root, m.get? a.descriptor.entity = some db ∧ m.get? b.root = some root ∧
      rootLink db root = some b.link := by
  obtain ⟨requested, db, _, _, binding, _, hrequested, hdb, -, -, hbinding, hdescriptor⟩ :=
    steps_of_analyze h
  rw [hdescriptor] at hb ⊢
  have hsome : binding = some b := hb
  rw [hsome] at hbinding
  obtain ⟨root, _, hroot, -, hlink, -⟩ := root_of_rootBinding hbinding
  exact ⟨db, root, (Model.get?_databaseEntity hrequested hdb).1, hroot, hlink⟩

/-! ## Services -/

theorem service_of_mergeEntityLevel {db source : Entity} {merged merged' : Merged}
    (h : mergeEntityLevel db source merged = .ok merged') : merged'.service = merged.service := by
  unfold mergeEntityLevel at h
  split at h
  · cases h
    rfl
  · obtain ⟨_, -, rfl⟩ := map_eq_ok.mp h
    rfl

theorem service_of_mergeElements {db : Entity} {source : String} {elements : List Element}
    {merged merged' : Merged}
    (h : elements.foldlM (mergeElement db source) merged = .ok merged') :
    merged'.service = merged.service := by
  induction elements generalizing merged with
  | nil =>
      cases h
      rfl
  | cons element elements ih =>
      rw [List.foldlM_cons, bind_eq_ok] at h
      obtain ⟨next, hnext, h⟩ := h
      rw [ih h]
      unfold mergeElement at hnext
      split at hnext
      · cases hnext
        rfl
      · split at hnext
        · cases hnext
          rfl
        · obtain ⟨_, -, rfl⟩ := map_eq_ok.mp hnext
          rfl

/-- A source is named as the service, or leaves the service as it is. -/
theorem service_of_mergeSource {db source : Entity} {merged merged' : Merged}
    (h : mergeSource db merged source = .ok merged') :
    merged'.service = merged.service ∨ merged'.service = some source.name := by
  rw [mergeSource, bind_eq_ok] at h
  obtain ⟨first, hfirst, h⟩ := h
  obtain ⟨second, hsecond, h⟩ := bind_eq_ok.mp h
  have hservice : second.service = merged.service := by
    rw [service_of_mergeElements hsecond, service_of_mergeEntityLevel hfirst]
  split at h
  · cases h
    exact .inr rfl
  · cases h
    exact .inl hservice

theorem service_of_mergeSources {db : Entity} {sources : List Entity} {merged merged' : Merged}
    (h : sources.foldlM (mergeSource db) merged = .ok merged') {service : String}
    (hservice : merged'.service = some service) :
    merged.service = some service ∨ ∃ source ∈ sources, source.name = service := by
  induction sources generalizing merged with
  | nil =>
      cases h
      exact .inl hservice
  | cons source sources ih =>
      rw [List.foldlM_cons, bind_eq_ok] at h
      obtain ⟨next, hnext, h⟩ := h
      rcases ih h with hbefore | ⟨source', hsource', hname⟩
      · rcases service_of_mergeSource hnext with hkept | hnamed
        · exact .inl (hkept ▸ hbefore)
        · rw [hnamed] at hbefore
          exact .inr ⟨source, List.mem_cons_self, Option.some.inj hbefore⟩
      · exact .inr ⟨source', List.mem_cons_of_mem _ hsource', hname⟩

/-- The service of a descriptor is an entity of the model. -/
theorem service_of_analyze {name : String} {a : Analysis} (h : analyze m name settings = .ok a)
    {service : String} (hservice : a.descriptor.service = some service) :
    ∃ e ∈ m.all, e.name = service := by
  obtain ⟨requested, db, merged, _, _, _, hrequested, hdb, hmerged, -, -, hdescriptor⟩ :=
    steps_of_analyze h
  rw [hdescriptor] at hservice
  dsimp only at hservice
  split at hservice
  · exact ⟨requested, Model.mem_all_of_get? hrequested, Option.some.inj hservice⟩
  · obtain hnone | ⟨source, hsource, hname⟩ := service_of_mergeSources hmerged hservice
    · cases hnone
    · refine ⟨source, ?_, hname⟩
      rcases List.mem_cons.mp hsource with rfl | hsource
      · exact Model.mem_all_of_get? (Model.get?_databaseEntity hrequested hdb).1
      · exact (List.mem_filter.mp hsource).1

/-- The entities whose tables a descriptor is about. -/
def Descriptor.tables (d : Descriptor) : List String :=
  d.entity :: (d.binding.toList.map (·.root) ++ d.collections.map (·.target))

/-- An analysis is about entities of the model. -/
theorem tables_of_analyze {name : String} {a : Analysis} (h : analyze m name settings = .ok a) :
    ∀ table ∈ a.descriptor.tables, ∃ e, m.get? table = some e := by
  obtain ⟨requested, db, merged, findings, binding, warnings, hrequested, hdb, -, hfindings,
    hbinding, hdescriptor⟩ := steps_of_analyze h
  rw [hdescriptor]
  intro table htable
  rcases List.mem_cons.mp htable with rfl | htable
  · exact ⟨db, (Model.get?_databaseEntity hrequested hdb).1⟩
  · rcases List.mem_append.mp htable with htable | htable
    · obtain ⟨b, hb, rfl⟩ := List.mem_map.mp htable
      have hb : binding = some b := Option.mem_toList.mp hb
      rw [hb] at hbinding
      obtain ⟨root, merged, hroot, -⟩ := root_of_rootBinding hbinding
      exact ⟨root, hroot⟩
    · obtain ⟨c, hc, rfl⟩ := List.mem_map.mp htable
      obtain ⟨finding, hfinding, hc⟩ := List.mem_filterMap.mp hc
      obtain ⟨element, -, hexamine⟩ := exists_of_mem_mapM hfindings hfinding
      obtain ⟨target, _, htarget, -, rfl⟩ := collectedAs_of_examine hexamine hc
      exact ⟨target, htarget⟩

/-! ## Whole models -/

/-- The entity of this name owns a table. -/
def OwnsTable (m : Model) (name : String) : Prop :=
  ∃ e, m.get? name = some e ∧ e.projectionOf = none

theorem ownsTable_of_mem_trackedNames {name : String} (h : name ∈ m.trackedNames) :
    OwnsTable m name := by
  have h := mem_sortedNames.mp h
  obtain ⟨e, he, hname⟩ := List.mem_filterMap.mp h
  obtain ⟨owner, howner, rfl⟩ := Option.map_eq_some_iff.mp hname
  have hget := Model.get?_of_mem_all (List.mem_filter.mp he).1
  refine ⟨owner, Model.get?_databaseEntity hget ?_⟩
  cases hdb : m.databaseEntity e with
  | error fault =>
      rw [hdb] at howner
      cases howner
  | ok owner' =>
      rw [hdb] at howner
      cases howner
      rfl

/-- What owns a table is analyzed under its own name. -/
theorem entity_of_analyze {name : String} (hname : OwnsTable m name) {a : Analysis}
    (h : analyze m name settings = .ok a) : a.descriptor.entity = name := by
  obtain ⟨e, hget, hprojection⟩ := hname
  obtain ⟨requested, db, _, _, _, _, hrequested, hdb, -, -, -, hdescriptor⟩ := steps_of_analyze h
  rw [hget] at hrequested
  cases hrequested
  rw [Model.databaseEntity_of_projectionOf hprojection] at hdb
  cases hdb
  rw [hdescriptor]
  exact Model.name_of_get? hget

/-- The analyses of several names are analyses of some of them, in their order. -/
theorem sublist_of_analyzeNames {names : List String} (hnames : ∀ name ∈ names, OwnsTable m name)
    {result : ModelAnalysis} (h : analyzeNames m settings names = .ok result) :
    (result.analyses.map (·.descriptor.entity)).Sublist names ∧
      ∀ a ∈ result.analyses, analyze m a.descriptor.entity settings = .ok a := by
  induction names generalizing result with
  | nil =>
      cases h
      exact ⟨List.Sublist.refl _, List.forall_mem_nil _⟩
  | cons name names ih =>
      obtain ⟨hname, hnames⟩ := List.forall_mem_cons.mp hnames
      unfold analyzeNames at h
      split at h
      · rename_i a ha
        obtain ⟨rest, hrest, rfl⟩ := map_eq_ok.mp h
        obtain ⟨hsublist, hall⟩ := ih hnames hrest
        have hentity := entity_of_analyze hname ha
        refine ⟨?_, List.forall_mem_cons.mpr ⟨by rw [hentity, ha], hall⟩⟩
        rw [List.map_cons, hentity]
        exact hsublist.cons_cons name
      · split at h
        · cases h
        · obtain ⟨rest, hrest, rfl⟩ := map_eq_ok.mp h
          obtain ⟨hsublist, hall⟩ := ih hnames hrest
          exact ⟨hsublist.cons name, hall⟩

theorem analyses_of_analyzeModel {result : ModelAnalysis}
    (h : analyzeModel m settings = .ok result) :
    (result.analyses.map (·.descriptor.entity)).Nodup ∧
      ∀ a ∈ result.analyses, analyze m a.descriptor.entity settings = .ok a := by
  have hnames : ∀ name ∈ m.trackedNames, OwnsTable m name := fun name hname =>
    ownsTable_of_mem_trackedNames hname
  obtain ⟨hsublist, hall⟩ := sublist_of_analyzeNames hnames h
  exact ⟨hsublist.nodup (nodup_sortedNames _), hall⟩

/-- The descriptors of all tracked entities. -/
def ModelAnalysis.descriptors (a : ModelAnalysis) : List Descriptor := a.analyses.map (·.descriptor)

theorem nodup_descriptors {a : ModelAnalysis} (h : analyzeModel m settings = .ok a) :
    (a.descriptors.map (·.entity)).Nodup := by
  rw [ModelAnalysis.descriptors, List.map_map]
  exact (analyses_of_analyzeModel h).1

theorem tables_of_mem_descriptors {a : ModelAnalysis} (h : analyzeModel m settings = .ok a)
    {d : Descriptor} (hd : d ∈ a.descriptors) :
    ∀ table ∈ d.tables, ∃ e, m.get? table = some e := by
  obtain ⟨analysis, hanalysis, rfl⟩ := List.mem_map.mp hd
  exact tables_of_analyze ((analyses_of_analyzeModel h).2 analysis hanalysis)

end ChangeTracking.Tracking
