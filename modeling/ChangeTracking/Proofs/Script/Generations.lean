import ChangeTracking.Proofs.Plan.Success
import ChangeTracking.Proofs.Tracking.Isolation
import ChangeTracking.Script.Generation
import Mathlib.Control.Monad.Basic

/-!
# Runs over models

What was analyzed can be planned, and what was planned has artifacts.  So a run over the
analyses of a model ends well for each of them, and has no faults but those of the
analysis.
-/

namespace ChangeTracking.Script

open Plan (planAll)
open Schema (Model)
open Tracking (Analysis Descriptor ModelAnalysis analyze analyzeModel)

variable {g : Generator} {m : Model} {settings : Settings}

namespace Generator

/-- What was analyzed has the artifacts of its planned sets: its collections are planned as
such. -/
theorem entityArtifacts_of_analyze {name : String} {a : Analysis}
    (h : analyze m name settings = .ok a) (g : Generator) :
    ∃ sets, planAll m a.descriptor settings = .ok sets ∧
      g.entityArtifacts m a.descriptor settings = .ok (sets.flatMap g.artifacts) := by
  have htables := Tracking.tables_of_analyze h
  obtain ⟨own, hown, -⟩ := Plan.exists_planEntity htables settings
  obtain ⟨sets, hsets, hcollections⟩ := Plan.exists_planCollections htables settings
  have hrest : sets.mapM g.collectionArtifacts = .ok (sets.map g.artifacts) := by
    refine mapM_eq_ok_map fun set hset => ?_
    have hcollection : set.collection.isNone = false := by
      rw [← Option.not_isSome, hcollections set hset]
      rfl
    rw [collectionArtifacts, hcollection]
    rfl
  refine ⟨own.toList ++ sets, ?_, ?_⟩
  · rw [planAll, hown, hsets]
    rfl
  · rw [entityArtifacts, hown, hsets, List.flatMap_append, List.flatMap_def]
    dsimp only [bind, Except.bind] at hrest ⊢
    rw [hrest]
    rfl

theorem exists_entityArtifacts {name : String} {a : Analysis}
    (h : analyze m name settings = .ok a) (g : Generator) :
    ∃ artifacts, g.entityArtifacts m a.descriptor settings = .ok artifacts := by
  obtain ⟨sets, -, hartifacts⟩ := entityArtifacts_of_analyze h g
  exact ⟨_, hartifacts⟩

/-- Entities that have artifacts add them in order, and no faults. -/
theorem foldlM_addEntity {descriptors : List Descriptor} {artifacts : List (List Artifact)}
    (h : (descriptors.mapM fun d => g.entityArtifacts m d settings) = .ok artifacts)
    (soFar : Generation) :
    descriptors.foldlM (g.addEntity m settings) soFar =
      .ok { soFar with artifacts := soFar.artifacts ++ artifacts.flatten } := by
  rw [mapM_eq_ok_iff] at h
  induction h generalizing soFar with
  | nil =>
      rw [List.foldlM_nil, List.flatten_nil, List.append_nil]
      rfl
  | @cons d first descriptors rest hfirst _ ih =>
      have hadd : g.addEntity m settings soFar d =
          .ok { soFar with artifacts := soFar.artifacts ++ first } := by
        rw [addEntity, hfirst]
      rw [List.foldlM_cons, hadd]
      exact (ih _).trans (by rw [List.flatten_cons, List.append_assoc])

end Generator

/-- Every model can be analyzed, and each of its tracked names stands for an analysis or for a
fault, as it does alone.  Whatever was analyzed can be planned and has artifacts; so the
run over the analyses yields the artifacts of all of them in order, behind the shared ones,
and no faults but those of the analysis. -/
theorem generate_of_analyzeModel (m : Model) (settings : Settings) (g : Generator) :
    ∃ result artifacts, analyzeModel m settings = .ok result ∧
      m.trackedNames.Nodup ∧ result.Accounts m settings m.trackedNames ∧
      (∀ name a, analyze m name settings = .ok a →
        (∃ sets, planAll m a.descriptor settings = .ok sets) ∧
          ∃ texts, g.entityArtifacts m a.descriptor settings = .ok texts) ∧
      (result.descriptors.mapM fun d => g.entityArtifacts m d settings) = .ok artifacts ∧
      g.generate m result.descriptors result.failures settings =
        .ok ⟨g.support settings ++ artifacts.flatten, result.failures⟩ := by
  obtain ⟨result, hresult, haccounts⟩ := Tracking.exists_analyzeModel m settings
  obtain ⟨artifacts, hartifacts⟩ : ∃ artifacts,
      (result.descriptors.mapM fun d => g.entityArtifacts m d settings) = .ok artifacts := by
    refine exists_mapM_eq_ok fun d hd => ?_
    obtain ⟨a, ha, rfl⟩ := List.mem_map.mp hd
    exact Generator.exists_entityArtifacts ((Tracking.analyses_of_analyzeModel hresult).2 a ha) g
  refine ⟨result, artifacts, hresult, nodup_sortedNames _, haccounts, fun name a ha => ?_,
    hartifacts, Generator.foldlM_addEntity hartifacts _⟩
  exact ⟨Plan.exists_planAll ha settings, Generator.exists_entityArtifacts ha g⟩

/-- Goods, and a log of them that has no key. -/
def storageModel : Model where
  entities := NameMap.ofList [
    ("storage.Goods", {
      name := "storage.Goods"
      elements := [
        { name := "ID", isKey := true },
        { name := "amount", directive := some (.marker true) }] }),
    ("storage.Log", {
      name := "storage.Log"
      elements := [{ name := "entry", directive := some (.marker true) }] })]
  checked := by decide

/-- The descriptor of the goods. -/
def goods : Descriptor where
  entity := "storage.Goods"
  service := none
  primaryKey := ["ID"]
  attributes := [Tracking.plainAttribute { name := "amount" }]
  identity := []
  collections := []
  binding := none

/-- The fault of the log. -/
def logFailure : String × Fault :=
  ("storage.Log", .invalidSchema "storage.Log" "tracked entity has no usable primary key")

theorem analyzeModel_storage :
    analyzeModel storageModel {} = .ok ⟨[⟨goods, []⟩], [logFailure]⟩ := by
  decide +kernel

/-- The generator for SAP HANA. -/
def hana : Generator := ⟨.hana, false⟩

/-- The log fails alone: the goods have their triggers, behind the shared artifacts. -/
theorem generate_of_storage :
    ∃ artifacts, hana.entityArtifacts storageModel goods {} = .ok artifacts ∧
      hana.generate storageModel [goods] [logFailure] {} =
        .ok ⟨hana.support {} ++ artifacts, [logFailure]⟩ := by
  obtain ⟨result, artifacts, hresult, -, -, -, hartifacts, hgenerate⟩ :=
    generate_of_analyzeModel storageModel {} hana
  rw [analyzeModel_storage] at hresult
  cases hresult
  have hone : ([goods].mapM fun d => hana.entityArtifacts storageModel d {}) = .ok artifacts :=
    hartifacts
  rw [List.mapM_cons, List.mapM_nil, bind_eq_ok] at hone
  obtain ⟨first, hfirst, hone⟩ := hone
  cases hone
  exact ⟨first, hfirst, hgenerate.trans (by rw [List.flatten_singleton])⟩

end ChangeTracking.Script
