import ChangeTracking.Proofs.Schema.Registered
import Mathlib.Logic.Relation

/-!
# Chains of projections

An entity projects at most one other, so there is one chain from it, and this chain ends or
comes back to where it was before.  The search for the entity that owns the table keeps the
names that it passed; it finds the end of the chain where there is one, and reports a fault
of the schema where the chain loops.
-/

namespace ChangeTracking.Schema

variable {entities : NameMap Entity}

/-- What a checked entity projects is an entity of the same map. -/
theorem exists_base_of_checkEntity {key base : String} {e : Entity}
    (h : checkEntity entities key e = .ok ()) (hbase : e.projectionOf = some base) :
    ∃ next, entities.get? base = some next := by
  rw [checkEntity] at h
  split at h
  · cases h
  · obtain ⟨_, -, h⟩ := bind_eq_ok.mp h
    obtain ⟨_, hcheck, -⟩ := bind_eq_ok.mp h
    rw [hbase, checkBase] at hcheck
    split at hcheck
    · rename_i hcontains
      exact Option.isSome_iff_exists.mp hcontains
    · cases hcheck

namespace Model

open Relation (ReflTransGen TransGen)

variable {m : Model} {e base owner owner' : Entity}

/-! ## Steps of a chain -/

/-- The one entity projects the other. -/
def Projects (m : Model) (e base : Entity) : Prop :=
  ∃ name, e.projectionOf = some name ∧ m.get? name = some base

/-- The chain from the one entity comes to the other. -/
abbrev ChainReaches (m : Model) : Entity → Entity → Prop := ReflTransGen m.Projects

theorem rightUnique_projects (m : Model) : Relator.RightUnique m.Projects := by
  rintro e base base' ⟨name, hname, hbase⟩ ⟨name', hname', hbase'⟩
  cases hname.symm.trans hname'
  exact Option.some.inj (hbase.symm.trans hbase')

theorem Projects.registered (h : m.Projects e base) : m.get? base.name = some base := by
  obtain ⟨name, -, hbase⟩ := h
  rwa [name_of_get? hbase]

/-- A chain stays in the model. -/
theorem registered_of_reaches {passed : Entity} (hget : m.get? e.name = some e)
    (h : m.ChainReaches e passed) : m.get? passed.name = some passed := by
  rcases h.cases_tail with rfl | ⟨_, -, hstep⟩
  · exact hget
  · exact hstep.registered

theorem not_projects_of_projectionOf (h : e.projectionOf = none) : ¬ m.Projects e base := by
  rintro ⟨name, hname, -⟩
  cases h.symm.trans hname

/-- In a checked model whatever an entity projects is there. -/
theorem exists_projects {name : String} (hget : m.get? e.name = some e)
    (hname : e.projectionOf = some name) : ∃ base, m.get? name = some base :=
  exists_base_of_checkEntity
    (eq_ok_of_forM m.checked (e.name, e) (NameMap.get?_eq_some_iff.mp hget)) hname

/-! ## Ends and loops -/

/-- The chain from the entity ends in the owner of the table. -/
structure ChainEnds (m : Model) (e owner : Entity) : Prop where
  reaches : m.ChainReaches e owner
  stops : owner.projectionOf = none

/-- The chain from the entity comes to an entity from which it leads back to it. -/
def ChainLoops (m : Model) (e : Entity) : Prop :=
  ∃ passed, m.ChainReaches e passed ∧ TransGen m.Projects passed passed

/-- Behind an entity that the chain comes back to it comes back to every entity. -/
theorem transGen_self_of_reaches {passed later : Entity} (hloop : TransGen m.Projects passed passed)
    (h : m.ChainReaches passed later) : TransGen m.Projects later later := by
  induction h with
  | refl => exact hloop
  | @tail middle later _ hstep ih =>
      obtain ⟨next, hnext, hback⟩ := TransGen.head'_iff.mp ih
      cases rightUnique_projects m hstep hnext
      exact TransGen.tail' hback hstep

theorem eq_of_reaches (h : owner.projectionOf = none)
    (hreaches : m.ChainReaches owner e) : e = owner := by
  rcases hreaches.cases_head with rfl | ⟨next, hnext, -⟩
  · rfl
  · exact absurd hnext (not_projects_of_projectionOf h)

theorem ChainEnds.unique (h : m.ChainEnds e owner) (h' : m.ChainEnds e owner') :
    owner = owner' := by
  rcases h.reaches.total_of_right_unique (rightUnique_projects m) h'.reaches with hlater | hlater
  · exact (eq_of_reaches h.stops hlater).symm
  · exact eq_of_reaches h'.stops hlater

/-- A chain that ends does not loop. -/
theorem ChainEnds.not_loops (h : m.ChainEnds e owner) : ¬ m.ChainLoops e := by
  rintro ⟨passed, hpassed, hloop⟩
  have howner : TransGen m.Projects owner owner := by
    rcases h.reaches.total_of_right_unique (rightUnique_projects m) hpassed with hlater | hlater
    · rwa [eq_of_reaches h.stops hlater] at hloop
    · exact transGen_self_of_reaches hloop hlater
  obtain ⟨next, hnext, -⟩ := TransGen.head'_iff.mp howner
  exact not_projects_of_projectionOf h.stops hnext

/-! ## The search for the owner -/

/-- The search ends at the end of the chain, or reports that the chain loops; the names that it
has passed are of entities from which the chain leads to the current one. -/
theorem chainEnd_cases {start : String} {visited : List String} {current : Entity}
    (hget : m.get? current.name = some current) (hcurrent : m.ChainReaches e current)
    (hvisited : ∀ name ∈ visited, ∀ passed, m.get? name = some passed →
      m.ChainReaches passed current) :
    (∃ owner, m.chainEnd start visited current = .ok owner ∧ m.ChainEnds e owner) ∨
      ∃ reason, m.chainEnd start visited current = .error (.invalidSchema start reason) ∧
        m.ChainLoops e := by
  -- Along the search: every entity that was passed leads to the current one, so to meet one again
  -- closes a loop.
  fun_induction chainEnd m start visited current with
  | case1 visited current hnone => exact .inl ⟨current, rfl, hcurrent, hnone⟩
  | case2 visited current name hname hmissing =>
      obtain ⟨next, hnext⟩ := exists_projects hget hname
      cases hmissing.symm.trans hnext
  | case3 visited current name hname next hnext hmem =>
      have hstep : m.Projects current next := ⟨name, hname, hnext⟩
      have hback := hvisited name hmem next hnext
      exact .inr ⟨_, rfl, next, hcurrent.tail hstep, TransGen.tail' hback hstep⟩
  | case4 visited current name hname next hnext hfresh ih =>
      have hstep : m.Projects current next := ⟨name, hname, hnext⟩
      refine ih hstep.registered (hcurrent.tail hstep) fun earlier hearlier passed hpassed => ?_
      rcases List.mem_append.mp hearlier with hbefore | hlast
      · exact (hvisited earlier hbefore passed hpassed).tail hstep
      · cases List.mem_singleton.mp hlast
        cases hpassed.symm.trans hnext
        exact .refl

/-- A registered entity has an owner of its table, at the end of its chain, or a fault of the
schema is reported for it, whose chain loops. -/
theorem databaseEntity_cases (hget : m.get? e.name = some e) :
    (∃ owner, m.databaseEntity e = .ok owner ∧ m.ChainEnds e owner) ∨
      ∃ reason, m.databaseEntity e = .error (.invalidSchema e.name reason) ∧ m.ChainLoops e := by
  refine chainEnd_cases hget .refl fun name hname passed hpassed => ?_
  cases List.mem_singleton.mp hname
  cases hpassed.symm.trans hget
  exact .refl

theorem databaseEntity_eq_ok_iff (hget : m.get? e.name = some e) :
    m.databaseEntity e = .ok owner ↔ m.ChainEnds e owner := by
  rcases databaseEntity_cases hget with ⟨found, hfound, hends⟩ | ⟨reason, hfault, hloops⟩
  · rw [hfound, Except.ok.injEq]
    constructor
    · rintro rfl
      exact hends
    · exact hends.unique
  · rw [hfault]
    constructor
    · rintro ⟨⟩
    · exact fun hends => absurd hloops hends.not_loops

/-- The chain from a registered entity ends or loops, and not both. -/
theorem chainLoops_iff (hget : m.get? e.name = some e) :
    m.ChainLoops e ↔ ¬ ∃ owner, m.ChainEnds e owner := by
  constructor
  · rintro hloops ⟨owner, hends⟩
    exact hends.not_loops hloops
  · intro hnever
    rcases databaseEntity_cases hget with ⟨owner, -, hends⟩ | ⟨reason, -, hloops⟩
    · exact absurd ⟨owner, hends⟩ hnever
    · exact hloops

end Model

end ChangeTracking.Schema
