import ChangeTracking.Proofs.Schema.Chains
import ChangeTracking.Proofs.Tracking.Isolation
import Mathlib.Control.Monad.Basic

/-!
# What the analysis of a model lists

The analysis of a model lists the owners of the tables that annotated entities lead to, each
with its descriptor or with the fault that stopped it.  An annotated entity whose chain of
projections loops leads to no table: it is not listed, and neither is anything on its chain.
-/

namespace ChangeTracking.Tracking

open Schema (Entity Model)

variable {m : Model} {settings : Settings} {e : Entity}

/-! ## Tracked names -/

/-- The tracked names are those of the entities in which the chains of annotated ones end. -/
theorem mem_trackedNames_iff {name : String} :
    name ∈ m.trackedNames ↔
      ∃ e ∈ m.all, e.isAnnotated = true ∧ ∃ owner, m.ChainEnds e owner ∧ owner.name = name := by
  rw [Model.trackedNames, mem_sortedNames, List.mem_filterMap]
  refine exists_congr fun e => ?_
  rw [List.mem_filter, and_assoc]
  refine and_congr_right fun he => and_congr_right fun _ => ?_
  rw [Option.map_eq_some_iff]
  refine exists_congr fun owner => and_congr_left fun _ => ?_
  rw [← Model.databaseEntity_eq_ok_iff (Model.get?_of_mem_all he)]
  cases m.databaseEntity e <;> simp [Except.toOption]

/-- No tracked name is on a chain that loops. -/
theorem not_mem_trackedNames_of_loops (he : e ∈ m.all) (hloops : m.ChainLoops e) {passed : Entity}
    (hpassed : m.ChainReaches e passed) : passed.name ∉ m.trackedNames := by
  intro hmem
  obtain ⟨e', he', -, owner, hends, hname⟩ := mem_trackedNames_iff.mp hmem
  -- Two entities of the model with one name are one entity, and this one ends its chain.
  have hregistered := (Model.get?_databaseEntity (Model.get?_of_mem_all he')
    ((Model.databaseEntity_eq_ok_iff (Model.get?_of_mem_all he')).mpr hends)).1
  have hget := Model.registered_of_reaches (Model.get?_of_mem_all he) hpassed
  rw [hname, hget] at hregistered
  cases hregistered
  exact Model.ChainEnds.not_loops ⟨hpassed, hends.stops⟩ hloops

/-! ## Listed entities -/

/-- The entities that the result has an analysis of, then those that it has a fault of. -/
def ModelAnalysis.listed (result : ModelAnalysis) : List String :=
  result.descriptors.map (·.entity) ++ result.failures.map Prod.fst

/-- The analysis of a model always ends, and lists an entity once, with its descriptor or with
its fault.  For every annotated entity it lists the owner of the table that the entity
projects, unless the chain of projections loops; it lists nothing else, and in particular
nothing on a chain that loops. -/
theorem listed_of_analyzeModel (m : Model) (settings : Settings) :
    ∃ result, analyzeModel m settings = .ok result ∧ result.listed.Nodup ∧
      (∀ e ∈ m.all, e.isAnnotated = true → ¬ m.ChainLoops e →
        ∃ owner, m.databaseEntity e = .ok owner ∧ owner.name ∈ result.listed) ∧
      (∀ name ∈ result.listed, ∃ e ∈ m.all, e.isAnnotated = true ∧
        ∃ owner, m.databaseEntity e = .ok owner ∧ owner.name = name) ∧
      ∀ e ∈ m.all, m.ChainLoops e → ∀ passed, m.ChainReaches e passed →
        passed.name ∉ result.listed := by
  obtain ⟨result, hresult, haccounts⟩ := exists_analyzeModel m settings
  have hlisted {name : String} : name ∈ result.listed ↔ name ∈ m.trackedNames :=
    haccounts.once.mem_iff
  refine ⟨result, hresult, haccounts.once.nodup_iff.mpr (nodup_sortedNames _), ?_, ?_, ?_⟩
  · intro e he hannotated hends
    have hget := Model.get?_of_mem_all he
    rw [Model.chainLoops_iff hget, not_not] at hends
    obtain ⟨owner, hends⟩ := hends
    exact ⟨owner, (Model.databaseEntity_eq_ok_iff hget).mpr hends,
      hlisted.mpr (mem_trackedNames_iff.mpr ⟨e, he, hannotated, owner, hends, rfl⟩)⟩
  · intro name hname
    obtain ⟨e, he, hannotated, owner, hends, rfl⟩ := mem_trackedNames_iff.mp (hlisted.mp hname)
    exact ⟨e, he, hannotated, owner,
      (Model.databaseEntity_eq_ok_iff (Model.get?_of_mem_all he)).mpr hends, rfl⟩
  · intro e he hloops passed hpassed hname
    exact not_mem_trackedNames_of_loops he hloops hpassed (hlisted.mp hname)

/-! ## Drafts of plans -/

/-- Plans, which may project an entity, and their drafts, which project them and are annotated. -/
def draftEntities (base : Option String) : NameMap Entity :=
  NameMap.ofList [
    ("Svc.Plans", {
      name := "Svc.Plans"
      projectionOf := base
      elements := [{ name := "ID", isKey := true }, { name := "status" }] }),
    ("Svc.Drafts", {
      name := "Svc.Drafts"
      projectionOf := some "Svc.Plans"
      elements := [
        { name := "ID", isKey := true },
        { name := "status", directive := some (.marker true) }] })]

/-- The plans own a table. -/
def draftModel : Model := ⟨draftEntities none, by decide⟩

/-- The plans project their drafts. -/
def loopingModel : Model := ⟨draftEntities (some "Svc.Drafts"), by decide⟩

/-- The drafts lead to the table of the plans, and the plans are listed. -/
theorem listed_plans : ∃ result drafts plans,
    draftModel.get? "Svc.Drafts" = some drafts ∧ drafts.isAnnotated = true ∧
      ¬ draftModel.ChainLoops drafts ∧ analyzeModel draftModel {} = .ok result ∧
      draftModel.databaseEntity drafts = .ok plans ∧ plans.name ∈ result.listed := by
  obtain ⟨drafts, hdrafts⟩ : ∃ drafts, draftModel.get? "Svc.Drafts" = some drafts := ⟨_, rfl⟩
  have hannotated : drafts.isAnnotated = true := by
    cases hdrafts
    decide
  have hends : ¬ draftModel.ChainLoops drafts := by
    cases hdrafts
    exact Model.ChainEnds.not_loops ⟨.single ⟨"Svc.Plans", rfl, rfl⟩, rfl⟩
  obtain ⟨result, hresult, -, hlisted, -⟩ := listed_of_analyzeModel draftModel {}
  obtain ⟨plans, hplans, hname⟩ :=
    hlisted drafts (Model.mem_all_of_get? hdrafts) hannotated hends
  exact ⟨result, drafts, plans, hdrafts, hannotated, hends, hresult, hplans, hname⟩

/-- Where the plans project their drafts, the analysis of the drafts alone reports the cycle, but
that of the model lists nothing. -/
theorem looping_drafts_not_listed : ∃ drafts,
    loopingModel.get? "Svc.Drafts" = some drafts ∧ drafts.isAnnotated = true ∧
      loopingModel.ChainLoops drafts ∧
      analyze loopingModel "Svc.Drafts" {} = .error (.invalidSchema "Svc.Drafts"
        "projection cycle: Svc.Drafts -> Svc.Plans -> Svc.Drafts") ∧
      analyzeModel loopingModel {} = .ok ⟨[], []⟩ := by
  obtain ⟨drafts, hdrafts⟩ : ∃ drafts, loopingModel.get? "Svc.Drafts" = some drafts := ⟨_, rfl⟩
  obtain ⟨plans, hplans⟩ : ∃ plans, loopingModel.get? "Svc.Plans" = some plans := ⟨_, rfl⟩
  have hforth : loopingModel.Projects drafts plans := by
    cases hdrafts
    exact ⟨"Svc.Plans", rfl, hplans⟩
  have hback : loopingModel.Projects plans drafts := by
    cases hplans
    exact ⟨"Svc.Drafts", rfl, hdrafts⟩
  refine ⟨drafts, hdrafts, ?_, ⟨drafts, .refl, .tail (.single hforth) hback⟩, by decide +kernel,
    by decide +kernel⟩
  cases hdrafts
  decide

end ChangeTracking.Tracking
