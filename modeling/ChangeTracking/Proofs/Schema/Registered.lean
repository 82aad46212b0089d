import ChangeTracking.Proofs.Steps
import ChangeTracking.Schema.Projection

/-!
# Registered entities

In a checked model every entity is registered under its own name.  A chain of projections
leads from registered entities to registered ones, and ends in an entity that projects
nothing.
-/

namespace ChangeTracking.Schema

variable {entities : NameMap Entity}

theorem name_of_checkEntity {key : String} {e : Entity}
    (h : checkEntity entities key e = .ok ()) : e.name = key := by
  by_cases hname : e.name = key
  · exact hname
  · simp only [checkEntity, if_pos hname] at h
    cases h

namespace Model

variable {m : Model}

theorem name_of_get? {name : String} {e : Entity} (h : m.get? name = some e) : e.name = name :=
  name_of_checkEntity (eq_ok_of_forM m.checked (name, e) (NameMap.get?_eq_some_iff.mp h))

theorem get?_of_mem_all {e : Entity} (h : e ∈ m.all) : m.get? e.name = some e := by
  obtain ⟨entry, hentry, rfl⟩ := List.mem_map.mp h
  have hget : m.get? entry.1 = some entry.2 := NameMap.get?_eq_some_iff.mpr hentry
  rwa [name_of_get? hget]

theorem mem_all_of_get? {name : String} {e : Entity} (h : m.get? name = some e) : e ∈ m.all :=
  List.mem_map_of_mem (f := Prod.snd) (NameMap.get?_eq_some_iff.mp h)

theorem entity_eq_ok_iff {name : String} {e : Entity} :
    m.entity name = .ok e ↔ m.get? name = some e := by
  unfold entity
  cases m.get? name <;> simp

/-- A chain of projections ends in a registered entity that projects nothing. -/
theorem chainEnd_registered {start : String} {visited : List String} {current owner : Entity}
    (h : m.chainEnd start visited current = .ok owner)
    (hcurrent : m.get? current.name = some current) :
    m.get? owner.name = some owner ∧ owner.projectionOf = none := by
  fun_induction chainEnd m start visited current with
  | case1 visited current hnone =>
      cases h
      exact ⟨hcurrent, hnone⟩
  | case2 => cases h
  | case3 => cases h
  | case4 visited current base hbase next hnext hfresh ih =>
      refine ih h ?_
      rw [name_of_get? hnext]
      exact hnext

/-- The entity that owns the table of a registered one is registered. -/
theorem get?_databaseEntity {name : String} {e owner : Entity} (h : m.get? name = some e)
    (howner : m.databaseEntity e = .ok owner) :
    m.get? owner.name = some owner ∧ owner.projectionOf = none := by
  refine chainEnd_registered howner ?_
  rw [name_of_get? h]
  exact h

/-- What projects nothing owns its table. -/
theorem databaseEntity_of_projectionOf {e : Entity} (h : e.projectionOf = none) :
    m.databaseEntity e = .ok e := by
  rw [databaseEntity, chainEnd.eq_def, h]

end Model

end ChangeTracking.Schema
