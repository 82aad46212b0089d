import ChangeTracking.Proofs.Script.Generations
import ChangeTracking.Proofs.Text.Folding
import Mathlib.Data.List.Nodup

/-!
# Names of triggers

A trigger is named by the table that it is on, by the composition element that it stands for
and by its operation.  It is not named by the owner that has the element; so the names of a
run are distinct where no two owners collect the same children by elements of one name, and
where no table is called as the triggers of another one are.
-/

namespace ChangeTracking.Script

open Plan (Operation TriggerSet planAll)
open Naming (IsName)
open Schema (Model)
open Sql (Dialect)
open Text (IsAscii)
open Tracking (Analysis Descriptor ModelAnalysis OwnsTable analyze analyzeModel)

/-! ## Places -/

/-- The table that a set is on, and the element that it stands for in lower case. -/
def place (set : TriggerSet) : String × Option String :=
  (set.entity, set.collection.map String.toLower)

/-- The places of all sets that a descriptor may have. -/
def places (d : Descriptor) : List (String × Option String) :=
  (d.entity, none) :: d.collections.map fun c => (c.target, some c.element.toLower)

section Places

variable {m : Model} {settings : Settings}

theorem sublist_places {d : Descriptor} {sets : List TriggerSet}
    (h : planAll m d settings = .ok sets) : (sets.map place).Sublist (places d) := by
  rw [planAll, bind_eq_ok] at h
  obtain ⟨own, hown, h⟩ := h
  obtain ⟨collections, hcollections, h⟩ := bind_eq_ok.mp h
  cases h
  have hplaces : collections.map place =
      d.collections.map fun c => (c.target, some c.element.toLower) := by
    refine map_eq_of_mapM hcollections fun c _ set hset => ?_
    obtain ⟨target, htarget, hentity, hcollection, -⟩ := Plan.table_of_planCollection hset
    rw [place, hentity, hcollection,
      Schema.Model.name_of_get? (Schema.Model.entity_eq_ok_iff.mp htarget)]
    rfl
  rw [List.map_append, hplaces, places]
  cases own with
  | none => exact List.sublist_cons_self _ _
  | some set =>
      obtain ⟨-, hentity, hcollection, -⟩ := Plan.table_of_planEntity hown
      rw [Option.toList_some, List.map_singleton, place, hentity, hcollection]
      exact List.Sublist.refl _

/-- Elements of one entity that are told apart in lower case. -/
def ElementsApart (m : Model) : Prop :=
  ∀ name e, m.get? name = some e → e.projectionOf = none →
    (e.elements.map (·.name.toLower)).Nodup

theorem nodup_places (helements : ElementsApart m) {name : String} {a : Analysis}
    (h : analyze m name settings = .ok a) : (places a.descriptor).Nodup := by
  obtain ⟨db, hget, hprojection, hsublist⟩ := Tracking.sublist_of_analyze h
  have hnodup : (a.descriptor.collections.map (·.element.toLower)).Nodup := by
    have hsublist := hsublist.map String.toLower
    rw [List.map_map, List.map_map] at hsublist
    exact hsublist.nodup (helements _ _ hget hprojection)
  rw [places, List.nodup_cons]
  refine ⟨fun hmem => ?_, List.Nodup.of_map (fun p => p.2.getD "") ?_⟩
  · obtain ⟨c, -, heq⟩ := List.mem_map.mp hmem
    cases (Prod.mk.inj heq).2
  · rw [List.map_map]
    exact hnodup

/-- Collections of the same children by elements of one name have one owner. -/
def RootsApart (descriptors : List Descriptor) : Prop :=
  ∀ d₁ ∈ descriptors, ∀ c₁ ∈ d₁.collections, ∀ d₂ ∈ descriptors, ∀ c₂ ∈ d₂.collections,
    c₁.target = c₂.target → c₁.element.toLower = c₂.element.toLower → d₁.entity = d₂.entity

instance : DecidablePred RootsApart := fun descriptors =>
  inferInstanceAs <| Decidable <|
    ∀ d₁ ∈ descriptors, ∀ c₁ ∈ d₁.collections, ∀ d₂ ∈ descriptors, ∀ c₂ ∈ d₂.collections,
      c₁.target = c₂.target → c₁.element.toLower = c₂.element.toLower → d₁.entity = d₂.entity

theorem disjoint_places {descriptors : List Descriptor} (hroots : RootsApart descriptors)
    {d₁ d₂ : Descriptor} (h₁ : d₁ ∈ descriptors) (h₂ : d₂ ∈ descriptors)
    (hne : d₁.entity ≠ d₂.entity) : List.Disjoint (places d₁) (places d₂) := by
  intro p hp₁ hp₂
  rcases List.mem_cons.mp hp₁ with rfl | hp₁
  · rcases List.mem_cons.mp hp₂ with heq | hp₂
    · exact hne (Prod.mk.inj heq).1
    · obtain ⟨c₂, -, heq⟩ := List.mem_map.mp hp₂
      cases (Prod.mk.inj heq).2
  · obtain ⟨c₁, hc₁, rfl⟩ := List.mem_map.mp hp₁
    rcases List.mem_cons.mp hp₂ with heq | hp₂
    · cases (Prod.mk.inj heq).2
    · obtain ⟨c₂, hc₂, heq⟩ := List.mem_map.mp hp₂
      obtain ⟨htarget, helement⟩ := Prod.mk.inj heq
      exact hne (hroots d₁ h₁ c₁ hc₁ d₂ h₂ c₂ hc₂ htarget.symm (Option.some.inj helement).symm)

/-- The sets of a run are in the places of their descriptors, in their order. -/
theorem sublist_flatMap_places {descriptors : List Descriptor} {setLists : List (List TriggerSet)}
    (h : (descriptors.mapM fun d => planAll m d settings) = .ok setLists) :
    (setLists.flatten.map place).Sublist (descriptors.flatMap places) := by
  rw [mapM_eq_ok_iff] at h
  induction h with
  | nil => exact List.Sublist.refl _
  | cons hsets _ ih =>
      rw [List.flatten_cons, List.map_append, List.flatMap_cons]
      exact (sublist_places hsets).append ih

/-- The sets of a run are in different places. -/
theorem nodup_place_of_analyzeModel (helements : ElementsApart m) {result : ModelAnalysis}
    (h : analyzeModel m settings = .ok result) (hroots : RootsApart result.descriptors)
    {setLists : List (List TriggerSet)}
    (hsets : (result.descriptors.mapM fun d => planAll m d settings) = .ok setLists) :
    (setLists.flatten.map place).Nodup := by
  refine (sublist_flatMap_places hsets).nodup (List.nodup_flatMap.mpr ⟨fun d hd => ?_, ?_⟩)
  · obtain ⟨a, ha, rfl⟩ := List.mem_map.mp hd
    exact nodup_places helements ((Tracking.analyses_of_analyzeModel h).2 a ha)
  · have hentities : result.descriptors.Pairwise fun d₁ d₂ => d₁.entity ≠ d₂.entity :=
      List.pairwise_map.mp (Tracking.nodup_descriptors h)
    exact hentities.imp_of_mem fun h₁ h₂ hne => disjoint_places hroots h₁ h₂ hne

end Places

/-! ## Stems -/

/-- A mark in a text is found in one way, unless one of the texts in front of it contains the
mark itself. -/
theorem eq_or_prefix_of_marked_eq {c t : Char} (hc : c ≠ '_') (ht : t ≠ '_')
    {front rest₁ rest₂ : List Char} (hrest : rest₁ = [] ∨ ∃ tail, rest₁ = '_' :: tail)
    (h : '_' :: c :: t :: rest₁ = front ++ '_' :: c :: t :: rest₂) :
    front = [] ∨ ['_', c, t, '_'] <+: front ++ ['_'] := by
  -- The first three characters of the mark cannot overlap with the mark itself.
  match front, h with
  | [], _ => exact .inl rfl
  | [x], h =>
      simp only [List.cons_append, List.nil_append, List.cons.injEq] at h
      exact absurd h.2.1 hc
  | [x, y], h =>
      simp only [List.cons_append, List.nil_append, List.cons.injEq] at h
      exact absurd h.2.2.1 ht
  | [x, y, z], h =>
      simp only [List.cons_append, List.nil_append, List.cons.injEq] at h
      obtain ⟨rfl, rfl, rfl, -⟩ := h
      exact .inr (List.prefix_refl _)
  | x :: y :: z :: w :: front, h =>
      simp only [List.cons_append, List.cons.injEq] at h
      obtain ⟨rfl, rfl, rfl, h⟩ := h
      rcases hrest with rfl | ⟨tail, rfl⟩
      · cases h
      · obtain ⟨rfl, -⟩ := List.cons.inj h
        exact .inr ⟨front ++ ['_'], rfl⟩

/-- Texts with a mark in them are equal where their parts are, or one of them has the mark in
the text in front. -/
theorem marked_append_inj {c t : Char} (hc : c ≠ '_') (ht : t ≠ '_')
    {front₁ front₂ rest₁ rest₂ : List Char} (hrest₁ : rest₁ = [] ∨ ∃ tail, rest₁ = '_' :: tail)
    (hrest₂ : rest₂ = [] ∨ ∃ tail, rest₂ = '_' :: tail)
    (h₁ : ¬ front₁ ++ ['_', c, t, '_'] <+: front₂ ++ ['_'])
    (h₂ : ¬ front₂ ++ ['_', c, t, '_'] <+: front₁ ++ ['_'])
    (h : front₁ ++ '_' :: c :: t :: rest₁ = front₂ ++ '_' :: c :: t :: rest₂) :
    front₁ = front₂ ∧ rest₁ = rest₂ := by
  rcases List.append_eq_append_iff.mp h with ⟨more, rfl, hmore⟩ | ⟨more, rfl, hmore⟩
  · rcases eq_or_prefix_of_marked_eq hc ht hrest₁ hmore with rfl | hprefix
    · simp only [List.nil_append, List.cons.injEq, true_and] at hmore
      exact ⟨(List.append_nil _).symm, hmore⟩
    · rw [List.append_assoc] at h₁
      exact absurd ((List.prefix_append_right_inj front₁).mpr hprefix) h₁
  · rcases eq_or_prefix_of_marked_eq hc ht hrest₂ hmore with rfl | hprefix
    · simp only [List.nil_append, List.cons.injEq, true_and] at hmore
      exact ⟨List.append_nil _, hmore.symm⟩
    · rw [List.append_assoc] at h₂
      exact absurd ((List.prefix_append_right_inj front₂).mpr hprefix) h₂

/-- What a set's stem says about its composition. -/
def compositionPart (set : TriggerSet) : String :=
  match set.collection with
  | some element => "_" ++ element
  | none => ""

theorem stem_eq (set : TriggerSet) :
    set.stem = Text.replaceChar '.' "_" set.entity ++ "_CT" ++ compositionPart set := rfl

/-- Different tables of the model have different stems. -/
def StemsApart (d : Dialect) (m : Model) : Prop :=
  ∀ t₁ t₂, OwnsTable m t₁ → OwnsTable m t₂ → d.tableStem t₁ = d.tableStem t₂ → t₁ = t₂

/-- No table of the model is called as the triggers of another one are. -/
def MarksApart (d : Dialect) (m : Model) : Prop :=
  ∀ t₁ t₂, OwnsTable m t₁ → OwnsTable m t₂ →
    ¬ (d.tableStem t₁ ++ d.fold "_CT_").toList <+: (d.tableStem t₂ ++ "_").toList

/-- The set is on a table of the model, and its names are names of the model. -/
structure IsPlaced (m : Model) (set : TriggerSet) : Prop where
  table : OwnsTable m set.entity
  element : ∀ element, set.collection = some element → IsName element

/-- The composition of a planned set is an element of the model. -/
theorem collection_of_planAll {m : Model} {settings settings' : Settings} {name : String}
    {a : Analysis} (h : analyze m name settings = .ok a) {sets : List TriggerSet}
    (hplan : planAll m a.descriptor settings' = .ok sets) {set : TriggerSet} (hset : set ∈ sets)
    {collection : String} (hcollection : set.collection = some collection) :
    ∃ table db element, m.get? table = some db ∧ element ∈ db.elements ∧
      element.name = collection := by
  rcases Plan.mem_planAll hplan hset with hown | ⟨c, hc, hplanned⟩
  · obtain ⟨-, -, hnone, -⟩ := Plan.table_of_planEntity hown
    cases hnone.symm.trans hcollection
  · obtain ⟨-, -, -, hsome, -⟩ := Plan.table_of_planCollection hplanned
    obtain ⟨db, element, hdb, helement, _, _, -, -, rfl⟩ :=
      Tracking.collectedAs_of_mem_collections h hc
    cases hsome.symm.trans hcollection
    exact ⟨_, db, element, hdb, helement, rfl⟩

theorem isPlaced_of_planAll {m : Model} {settings settings' : Settings} {name : String}
    {a : Analysis} (h : analyze m name settings = .ok a) {sets : List TriggerSet}
    (hplan : planAll m a.descriptor settings' = .ok sets) {set : TriggerSet} (hset : set ∈ sets) :
    IsPlaced m set where
  table := by
    rcases Plan.mem_planAll hplan hset with hown | ⟨c, hc, hcollection⟩
    · obtain ⟨-, hentity, -⟩ := Plan.table_of_planEntity hown
      obtain ⟨db, hget, hprojection, -⟩ := Tracking.sublist_of_analyze h
      exact ⟨db, by rw [hentity, hget], hprojection⟩
    · obtain ⟨target, htarget, hentity, -⟩ := Plan.table_of_planCollection hcollection
      obtain ⟨_, _, -, -, child, _, hchild, hprojection, rfl⟩ :=
        Tracking.collectedAs_of_mem_collections h hc
      rw [Schema.Model.entity_eq_ok_iff, hchild] at htarget
      cases htarget
      exact ⟨target, by rw [hentity, hchild], hprojection⟩
  element := by
    intro collection hcollection
    obtain ⟨_, db, element, hdb, helement, rfl⟩ := collection_of_planAll h hplan hset hcollection
    exact Schema.Model.isName_of_get? hdb _
      (Schema.Entity.mem_names_of_mem_elements helement List.mem_cons_self)

section Stems

variable {m : Model} {g : Generator} {set set₁ set₂ : TriggerSet}

theorem isName_of_ownsTable {name : String} (h : OwnsTable m name) : IsName name := by
  obtain ⟨e, hget, -⟩ := h
  have hname := Schema.Model.isName_entity hget
  rwa [Schema.Model.name_of_get? hget] at hname

theorem IsPlaced.isAscii_table (h : IsPlaced m set) :
    IsAscii (Text.replaceChar '.' "_" set.entity) :=
  (Text.isAscii_of_isName (isName_of_ownsTable h.table)).replaceChar '.' (by decide)

theorem IsPlaced.isAscii_compositionPart (h : IsPlaced m set) : IsAscii (compositionPart set) := by
  unfold compositionPart
  split
  · rename_i element helement
    have hmark : IsAscii "_" := by decide
    exact hmark.append (Text.isAscii_of_isName (h.element element helement))
  · exact List.forall_mem_nil _

theorem IsPlaced.isAscii_stem (h : IsPlaced m set) : IsAscii set.stem := by
  have hmark : IsAscii "_CT" := by decide
  rw [stem_eq]
  exact (h.isAscii_table.append hmark).append h.isAscii_compositionPart

theorem toList_fold_stem (h : IsPlaced m set) :
    (g.dialect.fold set.stem).toList =
      (g.dialect.tableStem set.entity).toList ++ '_' :: Dialect.letterCase g.backend 'C' ::
        Dialect.letterCase g.backend 'T' ::
          (compositionPart set).toList.map (Dialect.letterCase g.backend) := by
  rw [Generator.dialect, Dialect.tableStem, Dialect.toList_fold _ _ h.isAscii_stem,
    Dialect.toList_fold _ _ h.isAscii_table, stem_eq, String.toList_append, String.toList_append,
    List.map_append, List.map_append, List.append_assoc]
  cases g.backend <;> rfl

theorem toList_compositionPart (set : TriggerSet) (f : Char → Char) (hf : f '_' = '_') :
    (compositionPart set).toList.map f = [] ∨
      ∃ tail, (compositionPart set).toList.map f = '_' :: tail := by
  unfold compositionPart
  split
  · right
    rw [String.toList_append, List.map_append]
    exact ⟨_, congrArg (· :: _) hf⟩
  · exact .inl rfl

theorem letterCase_mark (backend : Backend) : Dialect.letterCase backend '_' = '_' ∧
    Dialect.letterCase backend 'C' ≠ '_' ∧ Dialect.letterCase backend 'T' ≠ '_' := by
  cases backend <;> decide

/-- Composition elements whose names are folded alike differ in letter case at most. -/
theorem collection_eq_of_map_eq (h₁ : IsPlaced m set₁) (h₂ : IsPlaced m set₂)
    (h : (compositionPart set₁).toList.map (Dialect.letterCase g.backend) =
      (compositionPart set₂).toList.map (Dialect.letterCase g.backend)) :
    set₁.collection.map String.toLower = set₂.collection.map String.toLower := by
  unfold compositionPart at h
  cases hc₁ : set₁.collection with
  | none =>
      cases hc₂ : set₂.collection with
      | none => rfl
      | some b => simp [hc₁, hc₂] at h
  | some a =>
      cases hc₂ : set₂.collection with
      | none => simp [hc₁, hc₂] at h
      | some b =>
          have ha := Text.isAscii_of_isName (h₁.element a hc₁)
          have hb := Text.isAscii_of_isName (h₂.element b hc₂)
          simp only [hc₁, hc₂, String.toList_append, List.map_append] at h
          have hfold : (Dialect.of g.backend g.quoted).fold a =
              (Dialect.of g.backend g.quoted).fold b := by
            rw [← String.toList_inj, Dialect.toList_fold _ _ ha, Dialect.toList_fold _ _ hb]
            exact List.append_cancel_left h
          exact congrArg some ((Dialect.fold_eq_iff _ _ ha hb).mp hfold)

/-- Sets whose stems are folded alike are in the same place. -/
theorem place_eq_of_fold_stem_eq (hstems : StemsApart g.dialect m)
    (hmarks : MarksApart g.dialect m) (h₁ : IsPlaced m set₁) (h₂ : IsPlaced m set₂)
    (h : g.dialect.fold set₁.stem = g.dialect.fold set₂.stem) : place set₁ = place set₂ := by
  -- Both stems have the mark behind the table, which splits them where the tables end.
  obtain ⟨hmark, hC, hT⟩ := letterCase_mark g.backend
  have hmarked : (g.dialect.fold "_CT_").toList = ['_', Dialect.letterCase g.backend 'C',
      Dialect.letterCase g.backend 'T', '_'] := by
    rw [Generator.dialect, Dialect.toList_fold _ _ (by decide)]
    cases g.backend <;> rfl
  have happart {t₁ t₂ : String} (ht₁ : OwnsTable m t₁) (ht₂ : OwnsTable m t₂) :
      ¬ (g.dialect.tableStem t₁).toList ++ ['_', Dialect.letterCase g.backend 'C',
        Dialect.letterCase g.backend 'T', '_'] <+: (g.dialect.tableStem t₂).toList ++ ['_'] := by
    have hnot := hmarks t₁ t₂ ht₁ ht₂
    rw [String.toList_append, String.toList_append, hmarked] at hnot
    exact hnot
  have hlists := congrArg String.toList h
  rw [toList_fold_stem h₁, toList_fold_stem h₂] at hlists
  obtain ⟨hstem, hpart⟩ := marked_append_inj hC hT (toList_compositionPart set₁ _ hmark)
    (toList_compositionPart set₂ _ hmark) (happart h₁.table h₂.table) (happart h₂.table h₁.table)
    hlists
  have hentity := hstems _ _ h₁.table h₂.table (String.toList_inj.mp hstem)
  rw [place, place, hentity, collection_eq_of_map_eq h₁ h₂ hpart]

end Stems

/-! ## Names -/

/-- What the names of a set's artifacts have after the stem. -/
def Generator.endings (g : Generator) (set : TriggerSet) : List String :=
  match g.backend with
  | .postgres => if set.operations.isEmpty then [] else ["_trigger"]
  | _ => set.operations.map fun op => g.dialect.fold ("_" ++ op.suffix)

/-- What the name of a set's function has after the stem. -/
def functionEndings (set : TriggerSet) : List String :=
  if set.operations.isEmpty then [] else ["_func"]

/-- The characters of an ending. -/
def Generator.endingLength (g : Generator) : Nat :=
  match g.backend with
  | .postgres => 8
  | _ => 7

section Names

variable {m : Model} {g : Generator} {set : TriggerSet} {sets : List TriggerSet}

theorem operationName_eq (h : IsAscii set.stem) (op : Operation) :
    operationName g.dialect set op =
      g.dialect.fold set.stem ++ g.dialect.fold ("_" ++ op.suffix) := by
  have hending : IsAscii ("_" ++ op.suffix) := by cases op <;> decide
  rw [operationName, String.append_assoc, Generator.dialect, Dialect.fold_append _ _ h hending]

theorem names_artifacts (h : IsAscii set.stem) :
    (g.artifacts set).map (·.name) = (g.endings set).map (g.dialect.fold set.stem ++ ·) := by
  have hsingle : (set.operations.map fun op => operationName g.dialect set op) =
      (set.operations.map fun op => g.dialect.fold ("_" ++ op.suffix)).map
        (g.dialect.fold set.stem ++ ·) := by
    rw [List.map_map]
    exact List.map_congr_left fun op _ => operationName_eq h op
  obtain ⟨backend, quoted⟩ := g
  cases backend with
  | postgres =>
      rw [Generator.artifacts, Generator.endings]
      dsimp only
      unfold Postgres.combined
      split <;> rfl
  | sqlite => exact List.map_map.trans hsingle
  | hana => exact List.map_map.trans hsingle
  | h2 => exact List.map_map.trans hsingle

/-- The artifacts of a set are attached to its table. -/
theorem entity_of_mem_artifacts {artifact : Artifact} (h : artifact ∈ g.artifacts set) :
    artifact.entity = some set.entity := by
  obtain ⟨backend, quoted⟩ := g
  cases backend with
  | postgres =>
      rw [Generator.artifacts] at h
      dsimp only at h
      unfold Postgres.combined at h
      split at h
      · cases h
      · rw [List.mem_singleton.mp h]
        rfl
  | sqlite =>
      obtain ⟨op, -, rfl⟩ := List.mem_map.mp h
      rfl
  | hana =>
      obtain ⟨op, -, rfl⟩ := List.mem_map.mp h
      rfl
  | h2 =>
      obtain ⟨op, -, rfl⟩ := List.mem_map.mp h
      rfl

theorem toList_fold_suffix (op : Operation) : (g.dialect.fold ("_" ++ op.suffix)).toList =
    ("_" ++ op.suffix).toList.map (Dialect.letterCase g.backend) :=
  Dialect.toList_fold _ _ (by cases op <;> decide)

theorem length_of_mem_endings {ending : String} (h : ending ∈ g.endings set) :
    ending.toList.length = g.endingLength := by
  have hsingle (h : ending ∈ set.operations.map fun op => g.dialect.fold ("_" ++ op.suffix)) :
      ending.toList.length = 7 := by
    obtain ⟨op, -, rfl⟩ := List.mem_map.mp h
    rw [toList_fold_suffix, List.length_map]
    cases op <;> rfl
  unfold Generator.endings at h
  unfold Generator.endingLength
  split at h
  · split at h
    · cases h
    · rw [List.mem_singleton.mp h]
      rfl
  · exact hsingle h

theorem nodup_endings (h : set.operations.Nodup) : (g.endings set).Nodup := by
  unfold Generator.endings
  split
  · split
    · exact List.nodup_nil
    · exact List.nodup_singleton _
  · refine h.map_on fun op₁ _ op₂ _ heq => ?_
    have hlists := congrArg String.toList heq
    rw [toList_fold_suffix, toList_fold_suffix] at hlists
    revert hlists
    cases g.backend <;> cases op₁ <;> cases op₂ <;> decide

theorem length_of_mem_functionEndings {ending : String} (h : ending ∈ functionEndings set) :
    ending.toList.length = 5 := by
  unfold functionEndings at h
  split at h
  · cases h
  · rw [List.mem_singleton.mp h]
    rfl

theorem nodup_functionEndings (set : TriggerSet) : (functionEndings set).Nodup := by
  unfold functionEndings
  split
  · exact List.nodup_nil
  · exact List.nodup_singleton _

/-- Names that add endings of one length to the stems of sets in different places are
distinct. -/
theorem nodup_stems_with_endings (hstems : StemsApart g.dialect m) (hmarks : MarksApart g.dialect m)
    (hplaced : ∀ set ∈ sets, IsPlaced m set) (hplaces : (sets.map place).Nodup)
    {endings : TriggerSet → List String} {n : Nat}
    (hlength : ∀ set ∈ sets, ∀ ending ∈ endings set, ending.toList.length = n)
    (hnodup : ∀ set ∈ sets, (endings set).Nodup) :
    (sets.flatMap fun set => (endings set).map (g.dialect.fold set.stem ++ ·)).Nodup := by
  refine List.nodup_flatMap.mpr ⟨fun set hset => ?_, ?_⟩
  · exact (hnodup set hset).map fun _ _ heq => (String.append_right_inj _).mp heq
  · refine (List.pairwise_map.mp hplaces).imp_of_mem fun {set₁ set₂} h₁ h₂ hne => ?_
    intro name hname₁ hname₂
    obtain ⟨ending₁, hending₁, rfl⟩ := List.mem_map.mp hname₁
    obtain ⟨ending₂, hending₂, heq⟩ := List.mem_map.mp hname₂
    -- Endings of one length come off, so names that are equal have equal stems.
    have hlists := congrArg String.toList heq
    rw [String.toList_append, String.toList_append] at hlists
    have hlengths : ending₂.toList.length = ending₁.toList.length := by
      rw [hlength set₁ h₁ ending₁ hending₁, hlength set₂ h₂ ending₂ hending₂]
    obtain ⟨hstem, -⟩ := List.append_inj' hlists hlengths
    exact hne (place_eq_of_fold_stem_eq hstems hmarks (hplaced set₁ h₁) (hplaced set₂ h₂)
      (String.toList_inj.mp hstem.symm))

/-- The artifact creates a function, or replaces the one of that name. -/
def Replaces (function : String) (artifact : Artifact) : Prop :=
  ("CREATE OR REPLACE FUNCTION " ++ Text.sqlIdentifier function ++ "() ").toList <+:
    artifact.source.toList

/-- Every pair creates the function that its set is called for. -/
theorem functions_artifacts (hbackend : g.backend = .postgres) (set : TriggerSet) :
    List.Forall₂ Replaces ((functionEndings set).map (g.dialect.fold set.stem ++ ·))
      (g.artifacts set) := by
  rw [Generator.artifacts, hbackend, functionEndings]
  dsimp only
  unfold Postgres.combined
  split
  · exact .nil
  · refine .cons ?_ .nil
    have hopening : "() ".toList <+: "() RETURNS TRIGGER AS $$\nDECLARE\n".toList := by
      decide +kernel
    unfold Replaces Postgres.pair Postgres.function
    simp only [String.toList_append, List.append_assoc, List.prefix_append_right_inj]
    exact hopening.trans (List.prefix_append _ _)

end Names

/-- The artifacts of a run that are attached to an entity. -/
def Generation.attached (generation : Generation) : List Artifact :=
  generation.artifacts.filter (·.entity.isSome)

section Runs

variable {m : Model} {g : Generator} {settings : Settings}

theorem attached_eq (g : Generator) (settings : Settings) (sets : List TriggerSet)
    (failures : List (String × Fault)) :
    Generation.attached ⟨g.support settings ++ sets.flatMap g.artifacts, failures⟩ =
      sets.flatMap g.artifacts := by
  have hsupport : ∀ artifact ∈ g.support settings, ¬ artifact.entity.isSome = true := by
    obtain ⟨backend, quoted⟩ := g
    cases backend <;>
      simp [Generator.support, Hana.support, Hana.openProcedure, Hana.appendProcedure,
        Hana.procedure]
  have hartifacts : ∀ artifact ∈ sets.flatMap g.artifacts, artifact.entity.isSome = true := by
    intro artifact hartifact
    obtain ⟨set, -, hmem⟩ := List.mem_flatMap.mp hartifact
    rw [entity_of_mem_artifacts hmem]
    rfl
  rw [Generation.attached, List.filter_append, List.filter_eq_nil_iff.mpr hsupport,
    List.filter_eq_self.mpr hartifacts, List.nil_append]

/-- A run over the analyses of a model has the artifacts of all planned sets. -/
theorem generate_of_sets (g : Generator) {result : ModelAnalysis}
    (h : analyzeModel m settings = .ok result) :
    ∃ setLists : List (List TriggerSet),
      (result.descriptors.mapM fun d => planAll m d settings) = .ok setLists ∧
        g.generate m result.descriptors result.failures settings =
          .ok ⟨g.support settings ++ setLists.flatten.flatMap g.artifacts, result.failures⟩ := by
  have hsteps : ∀ d ∈ result.descriptors, ∃ sets, planAll m d settings = .ok sets ∧
      g.entityArtifacts m d settings = .ok (sets.flatMap g.artifacts) := by
    intro d hd
    obtain ⟨a, ha, rfl⟩ := List.mem_map.mp hd
    exact Generator.entityArtifacts_of_analyze ((Tracking.analyses_of_analyzeModel h).2 a ha) g
  have hplans : ∀ d ∈ result.descriptors, ∃ sets, planAll m d settings = .ok sets := fun d hd =>
    (hsteps d hd).imp fun _ hstep => hstep.1
  obtain ⟨setLists, hsets⟩ := exists_mapM_eq_ok hplans
  have hartifacts : (result.descriptors.mapM fun d => g.entityArtifacts m d settings) =
      .ok (setLists.map fun sets => sets.flatMap g.artifacts) := by
    refine mapM_map_of_mapM hsets fun d hd sets hplan => ?_
    obtain ⟨sets', hplan', hd'⟩ := hsteps d hd
    rw [hplan] at hplan'
    cases hplan'
    exact hd'
  refine ⟨setLists, hsets, (Generator.foldlM_addEntity hartifacts _).trans ?_⟩
  rw [List.flatMap_def, List.map_flatten, List.flatten_flatten, List.map_map]
  rfl

/-- A run over the analyses of a model attaches triggers of different names, where tables and
elements are told apart, where no table is called as the triggers of another one are, and where
collections of the same children by elements of one name have one owner.  In PostgreSQL no
artifact then replaces the function of another one. -/
theorem triggerNames_nodup {result : ModelAnalysis} (h : analyzeModel m settings = .ok result)
    (hstems : StemsApart g.dialect m) (helements : ElementsApart m)
    (hmarks : MarksApart g.dialect m) (hroots : RootsApart result.descriptors) :
    ∃ generation, g.generate m result.descriptors result.failures settings = .ok generation ∧
      (generation.attached.map (·.name)).Nodup ∧
      (g.backend = .postgres → ∃ functions : List String, functions.Nodup ∧
        List.Forall₂ Replaces functions generation.attached) := by
  obtain ⟨setLists, hsets, hgenerate⟩ := generate_of_sets g h
  refine ⟨_, hgenerate, ?_⟩
  rw [attached_eq]
  have hplanned : ∀ set ∈ setLists.flatten,
      IsPlaced m set ∧ set.operations = Plan.enabledOperations settings := by
    intro set hset
    obtain ⟨sets, hmem, hset⟩ := List.mem_flatten.mp hset
    obtain ⟨d, hd, hplan⟩ := exists_of_mem_mapM hsets hmem
    obtain ⟨a, ha, rfl⟩ := List.mem_map.mp hd
    exact ⟨isPlaced_of_planAll ((Tracking.analyses_of_analyzeModel h).2 a ha) hplan hset,
      Plan.operations_of_planAll hplan hset⟩
  have hplaced : ∀ set ∈ setLists.flatten, IsPlaced m set := fun set hset => (hplanned set hset).1
  have hplaces := nodup_place_of_analyzeModel helements h hroots hsets
  refine ⟨?_, fun hbackend => ?_⟩
  · -- Names are stems with endings: the stems of sets differ, and so do the endings of one set.
    rw [List.map_flatMap, List.flatMap_congr fun set hset =>
      names_artifacts (g := g) (hplaced set hset).isAscii_stem]
    refine nodup_stems_with_endings hstems hmarks hplaced hplaces
      (fun set _ ending hending => length_of_mem_endings hending) fun set hset => ?_
    exact nodup_endings ((hplanned set hset).2 ▸ Plan.nodup_enabledOperations settings)
  · refine ⟨_, nodup_stems_with_endings hstems hmarks hplaced hplaces
      (fun _ _ _ hending => length_of_mem_functionEndings hending)
      (fun set _ => nodup_functionEndings set), ?_⟩
    exact List.rel_flatMap (R := Eq) (List.forall₂_refl _)
      fun set _ heq => heq ▸ functions_artifacts hbackend set

/-! ### Named tables -/

theorem mem_names_of_ownsTable {name : String} (h : OwnsTable m name) :
    name ∈ m.entities.names := by
  obtain ⟨e, hget, -⟩ := h
  exact Schema.Model.mem_names_of_get? hget

theorem stemsApart_of_names {d : Dialect}
    (h : ∀ t₁ ∈ m.entities.names, ∀ t₂ ∈ m.entities.names,
      d.tableStem t₁ = d.tableStem t₂ → t₁ = t₂) : StemsApart d m :=
  fun t₁ t₂ h₁ h₂ => h t₁ (mem_names_of_ownsTable h₁) t₂ (mem_names_of_ownsTable h₂)

theorem marksApart_of_names {d : Dialect}
    (h : ∀ t₁ ∈ m.entities.names, ∀ t₂ ∈ m.entities.names,
      ¬ (d.tableStem t₁ ++ d.fold "_CT_").toList <+: (d.tableStem t₂ ++ "_").toList) :
    MarksApart d m :=
  fun t₁ t₂ h₁ h₂ => h t₁ (mem_names_of_ownsTable h₁) t₂ (mem_names_of_ownsTable h₂)

theorem elementsApart_of_entries
    (h : ∀ entry ∈ m.entities.entries, (entry.2.elements.map (·.name.toLower)).Nodup) :
    ElementsApart m :=
  fun name e hget _ => h (name, e) (NameMap.get?_eq_some_iff.mp hget)

end Runs

/-- An entity that collects items by an element of the given name. -/
def itemsOwner (name element : String) : Schema.Entity where
  name := name
  elements := [
    { name := "ID", isKey := true },
    { name := element, type := "cds.Composition"
      association := some {
        kind := .composition, target := "shop.Items", many := true, on := [⟨"parent_ID", "ID"⟩] }
      directive := some (.marker true) }]

/-- An entity with an amount that is tracked. -/
def amounts (name : String) : Schema.Entity where
  name := name
  elements := [
    { name := "ID", isKey := true },
    { name := "amount", directive := some (.marker true) }]

/-- Orders and offers collect items by elements of different names. -/
def marketModel : Model where
  entities := NameMap.ofList [
    ("shop.Items", amounts "shop.Items"),
    ("shop.Offers", itemsOwner "shop.Offers" "positions"),
    ("shop.Orders", itemsOwner "shop.Orders" "items")]
  checked := by decide

/-- The triggers of orders, offers and items have different names, and their functions too. -/
theorem triggerNames_market : ∃ result generation, analyzeModel marketModel {} = .ok result ∧
    Generator.generate ⟨.postgres, false⟩ marketModel result.descriptors result.failures {} =
      .ok generation ∧
    (generation.attached.map (·.name)).Nodup ∧
    ∃ functions : List String, functions.Nodup ∧
      List.Forall₂ Replaces functions generation.attached := by
  have hroots : ((analyzeModel marketModel {}).toOption.any fun result =>
      decide (RootsApart result.descriptors)) = true := by
    decide +kernel
  cases hresult : analyzeModel marketModel {} with
  | error fault =>
      rw [hresult] at hroots
      cases hroots
  | ok result =>
      rw [hresult] at hroots
      obtain ⟨generation, hgenerate, hnames, hfunctions⟩ :=
        triggerNames_nodup (g := ⟨.postgres, false⟩) hresult
          (stemsApart_of_names (by decide +kernel)) (elementsApart_of_entries (by decide +kernel))
          (marksApart_of_names (by decide +kernel)) (of_decide_eq_true hroots)
      exact ⟨result, generation, rfl, hgenerate, hnames, hfunctions rfl⟩

/-- Orders and offers collect items by elements of one name. -/
def sharedModel : Model where
  entities := NameMap.ofList [
    ("shop.Items", amounts "shop.Items"),
    ("shop.Offers", itemsOwner "shop.Offers" "items"),
    ("shop.Orders", itemsOwner "shop.Orders" "items")]
  checked := by decide

/-- A table is called as the triggers are that orders have on their items. -/
def markedModel : Model where
  entities := NameMap.ofList [
    ("shop.Items", amounts "shop.Items"),
    ("shop.Items_CT_x", amounts "shop.Items_CT_x"),
    ("shop.Orders", itemsOwner "shop.Orders" "x_CT")]
  checked := by decide

/-- In every backend triggers of the model get one name, though tables and elements are told
apart. -/
def NamesCollide (m : Model) : Prop := ∀ backend,
  StemsApart (Dialect.of backend false) m ∧ ElementsApart m ∧
    ∃ result generation, analyzeModel m {} = .ok result ∧
      Generator.generate ⟨backend, false⟩ m result.descriptors result.failures {} =
        .ok generation ∧
      ¬ (generation.attached.map (·.name)).Nodup

theorem namesCollide_of_run {m : Model}
    (hstems : ∀ backend, ∀ t₁ ∈ m.entities.names, ∀ t₂ ∈ m.entities.names,
      (Dialect.of backend false).tableStem t₁ = (Dialect.of backend false).tableStem t₂ → t₁ = t₂)
    (helements : ∀ entry ∈ m.entities.entries, (entry.2.elements.map (·.name.toLower)).Nodup)
    (hnames : ∀ backend, (((analyzeModel m {}).toOption.bind fun result =>
      (Generator.generate ⟨backend, false⟩ m result.descriptors result.failures {}).toOption).any
        fun generation => decide ¬ (generation.attached.map (·.name)).Nodup) = true) :
    NamesCollide m := by
  intro backend
  refine ⟨stemsApart_of_names (hstems backend), elementsApart_of_entries helements, ?_⟩
  have hnames := hnames backend
  cases hresult : analyzeModel m {} with
  | error fault =>
      rw [hresult] at hnames
      cases hnames
  | ok result =>
      obtain ⟨setLists, -, hgenerate⟩ := generate_of_sets ⟨backend, false⟩ hresult
      rw [hresult, Except.toOption, Option.bind_some, hgenerate] at hnames
      exact ⟨result, _, rfl, hgenerate, of_decide_eq_true hnames⟩

/-- Names collide where owners collect by elements of one name, and where a table is called
as the triggers of another one are. -/
theorem triggerNames_collide : NamesCollide sharedModel ∧ NamesCollide markedModel := by
  constructor
  · exact namesCollide_of_run (fun backend => by cases backend <;> decide +kernel)
      (by decide +kernel) fun backend => by cases backend <;> decide +kernel
  · exact namesCollide_of_run (fun backend => by cases backend <;> decide +kernel)
      (by decide +kernel) fun backend => by cases backend <;> decide +kernel

end ChangeTracking.Script
