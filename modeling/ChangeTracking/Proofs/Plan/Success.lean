import ChangeTracking.Proofs.Plan.PlannedSets
import ChangeTracking.Proofs.Tracking.Analyses

/-!
# Planning succeeds

Planning looks entities up by the names that a descriptor holds, and fails in no other way.
So whatever was analyzed can be planned.
-/

namespace ChangeTracking.Plan

open Schema (Entity Model)
open Tracking (Analysis Collection Descriptor IdentityField RootLink analyze)

variable {m : Model} {d : Descriptor}

theorem exists_owner {rootName : String} {root : Entity} (hroot : m.get? rootName = some root)
    (child : String) (childKey : List String) (link : RootLink) (fields : List IdentityField) :
    ∃ o, owner m child childKey rootName link fields = .ok o := by
  rw [owner, Schema.Model.entity_eq_ok_iff.mpr hroot]
  exact ⟨_, rfl⟩

/-- The own set of an entity is planned, and is there when it has attributes. -/
theorem exists_planEntity (h : ∀ table ∈ d.tables, ∃ e, m.get? table = some e)
    (settings : Settings) :
    ∃ own, planEntity m d settings = .ok own ∧ own.isSome = !d.attributes.isEmpty := by
  unfold planEntity
  split
  · rename_i hempty
    exact ⟨none, rfl, by rw [hempty]; rfl⟩
  · rename_i hattributes
    obtain ⟨entity, hentity⟩ := h d.entity List.mem_cons_self
    have howner : ∃ found, (d.binding.mapM fun binding =>
        owner m d.entity d.primaryKey binding.root binding.link binding.identity) = .ok found := by
      refine exists_optionMapM_eq_ok fun binding hbinding => ?_
      have hmem : binding.root ∈ d.tables := by simp [Descriptor.tables, hbinding]
      obtain ⟨root, hroot⟩ := h binding.root hmem
      exact exists_owner hroot d.entity d.primaryKey binding.link binding.identity
    obtain ⟨found, hfound⟩ := howner
    rw [Schema.Model.entity_eq_ok_iff.mpr hentity, hfound]
    exact ⟨_, rfl, by simp [hattributes]⟩

/-- What is analyzed and has attributes has a set of its own. -/
theorem exists_ownSet {name : String} {settings : Settings} {a : Analysis}
    (h : analyze m name settings = .ok a) (hattributes : a.descriptor.attributes.isEmpty = false) :
    ∃ own, planEntity m a.descriptor settings = .ok (some own) := by
  obtain ⟨own, hown, hsome⟩ := exists_planEntity (Tracking.tables_of_analyze h) settings
  rw [hattributes] at hsome
  obtain ⟨set, rfl⟩ := Option.isSome_iff_exists.mp hsome
  exact ⟨set, hown⟩

/-- The set of a collection is planned, and tells that it is one. -/
theorem exists_planCollection (h : ∀ table ∈ d.tables, ∃ e, m.get? table = some e)
    (settings : Settings) {c : Collection} (hc : c ∈ d.collections) :
    ∃ set, planCollection m d settings c = .ok set ∧ set.collection = some c.element := by
  have hmem : c.target ∈ d.tables := by
    simp only [Descriptor.tables, List.mem_cons, List.mem_append]
    exact .inr (.inr (List.mem_map_of_mem hc))
  obtain ⟨target, htarget⟩ := h c.target hmem
  obtain ⟨root, hroot⟩ := h d.entity List.mem_cons_self
  have howner : ∃ found, (c.link.mapM fun link =>
      owner m target.name c.targetKeys d.entity link d.identity) = .ok found :=
    exists_optionMapM_eq_ok fun link _ =>
      exists_owner hroot target.name c.targetKeys link d.identity
  obtain ⟨found, hfound⟩ := howner
  rw [planCollection, Schema.Model.entity_eq_ok_iff.mpr htarget]
  dsimp only [bind, Except.bind] at hfound ⊢
  rw [hfound]
  exact ⟨_, rfl, rfl⟩

theorem exists_planCollections (h : ∀ table ∈ d.tables, ∃ e, m.get? table = some e)
    (settings : Settings) :
    ∃ sets, planCollections m d settings = .ok sets ∧ ∀ set ∈ sets, set.collection.isSome := by
  have hsets : ∃ sets, planCollections m d settings = .ok sets :=
    exists_mapM_eq_ok fun c hc =>
      let ⟨set, hset, _⟩ := exists_planCollection h settings hc
      ⟨set, hset⟩
  obtain ⟨sets, hsets⟩ := hsets
  refine ⟨sets, hsets, fun set hset => ?_⟩
  obtain ⟨c, hc, hplan⟩ := exists_of_mem_mapM hsets hset
  obtain ⟨set', hset', hcollection⟩ := exists_planCollection h settings hc
  rw [hplan] at hset'
  cases hset'
  rw [hcollection]
  rfl

/-- All sets of what was analyzed are planned. -/
theorem exists_planAll {name : String} {settings : Settings} {a : Analysis}
    (h : analyze m name settings = .ok a) (settings' : Settings) :
    ∃ sets, planAll m a.descriptor settings' = .ok sets := by
  have htables := Tracking.tables_of_analyze h
  obtain ⟨own, hown, -⟩ := exists_planEntity htables settings'
  obtain ⟨sets, hsets, -⟩ := exists_planCollections htables settings'
  rw [planAll, hown, hsets]
  exact ⟨_, rfl⟩

end ChangeTracking.Plan
