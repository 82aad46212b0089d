import ChangeTracking.Proofs.NameMaps
import ChangeTracking.Proofs.Tracking.Coverage
import Mathlib.Data.Nat.Find
import Mathlib.Logic.Function.Iterate

/-!
# Projections and the owners of their tables

The search for the owner of a table takes its turns one by one, and every turn passes a name
that it has not passed before, so there are no more of them than the model has entities.  From
an entity the references lead on until one is missing, or for ever.  The search finds the last
entity where there is one and reports a fault of the schema where there is none, and from the
owner it finds the owner itself.  The projections of an entity, and the tracked names, are
listed in order, once each, by where their chains end.
-/

namespace ChangeTracking

namespace Schema.Model

variable {m : Model} {e passed owner : Entity}

/-- The entities of a model stand in the order of their names. -/
theorem pairwise_all (m : Model) : m.all.Pairwise fun e e' => e.name < e'.name := by
  refine List.pairwise_map.mpr (m.entities.ascending.imp_of_mem ?_)
  intro entry entry' hentry hentry' hlt
  have hname : entry.2.name = entry.1 := name_of_get? (NameMap.get?_eq_some_iff.mpr hentry)
  have hname' : entry'.2.name = entry'.1 := name_of_get? (NameMap.get?_eq_some_iff.mpr hentry')
  rwa [hname, hname']

/-! ## Turns of the search -/

/-- The search for the owner of a table: at an entity, with the names that it has passed, or
over, with its result. -/
inductive Search where
  | passing (visited : List String) (current : Entity)
  | ended (result : Except Fault Entity)

/-- One turn of the search that began at `start`. -/
def turn (m : Model) (start : String) : Search → Search
  | .ended result => .ended result
  | .passing visited current =>
      match current.projectionOf with
      | none => .ended (.ok current)
      | some base =>
          match m.get? base with
          | none => .ended (.error (.unknownEntity base))
          | some next =>
              if base ∈ visited then
                .ended (.error (.invalidSchema start
                  ("projection cycle: " ++ " -> ".intercalate visited ++ " -> " ++ base)))
              else
                .passing (visited ++ [base]) next

theorem iterate_turn_ended (m : Model) (start : String) (result : Except Fault Entity) (n : Nat) :
    (m.turn start)^[n] (.ended result) = .ended result :=
  Function.iterate_fixed rfl n

/-- The search is over after one turn more than there are names that it has not passed. -/
theorem iterate_turn_passing {start : String} {visited : List String} {current : Entity} {n : Nat}
    (h : (m.unvisited visited).length < n) :
    (m.turn start)^[n] (.passing visited current) =
      .ended (m.chainEnd start visited current) := by
  obtain ⟨n, rfl⟩ := Nat.exists_eq_add_one_of_ne_zero (Nat.ne_zero_of_lt h)
  rw [Function.iterate_succ_apply]
  fun_induction chainEnd m start visited current generalizing n with
  | case1 visited current hnone =>
      rw [turn, hnone]
      exact iterate_turn_ended m start _ n
  | case2 visited current base hbase hmissing =>
      simp only [turn, hbase, hmissing]
      exact iterate_turn_ended m start _ n
  | case3 visited current base hbase next hnext hmem =>
      simp only [turn, hbase, hnext, if_pos hmem]
      exact iterate_turn_ended m start _ n
  | case4 visited current base hbase next hnext hfresh ih =>
      -- A fresh name leaves fewer names unvisited, which pays for one more turn.
      have hless := length_unvisited_lt (mem_names_of_get? hnext) hfresh
      obtain ⟨n, rfl⟩ : ∃ k, n = k + 1 := Nat.exists_eq_add_one_of_ne_zero (by omega)
      simp only [turn, hbase, hnext, if_neg hfresh]
      rw [Function.iterate_succ_apply]
      exact ih n (by omega)

/-- From an entity of the model the search takes at most as many turns as there are entities. -/
theorem iterate_turn_start (he : e ∈ m.all) :
    (m.turn e.name)^[m.all.length] (.passing [e.name] e) = .ended (m.databaseEntity e) := by
  refine iterate_turn_passing ?_
  have hname : e.name ∈ m.entities.names := mem_names_of_get? (get?_of_mem_all he)
  have hless : (m.unvisited ([] ++ [e.name])).length < (m.unvisited []).length :=
    length_unvisited_lt hname List.not_mem_nil
  have hall : m.all.length = m.entities.names.length := by
    rw [all, NameMap.values, NameMap.names, List.length_map, List.length_map]
  rw [hall]
  exact Nat.lt_of_lt_of_le hless (List.length_filter_le _ _)

/-! ## Lengths of chains -/

/-- Where `n` references lead from `e`, if there are so many. -/
def chain (m : Model) (e : Entity) : Nat → Option Entity
  | 0 => some e
  | n + 1 => (m.chain e n).bind fun current => current.projectionOf.bind m.get?

/-- The chain from `e` is finite and `owner` is the last entity of it. -/
def LastOfChain (m : Model) (e owner : Entity) : Prop :=
  ∃ n, m.chain e n = some owner ∧ m.chain e (n + 1) = none

theorem projects_iff : m.Projects e passed ↔ e.projectionOf.bind m.get? = some passed := by
  rw [Option.bind_eq_some_iff, Projects]

theorem chainReaches_iff : m.ChainReaches e passed ↔ ∃ n, m.chain e n = some passed := by
  constructor
  · intro h
    induction h with
    | refl => exact ⟨0, rfl⟩
    | tail _ hstep ih =>
        obtain ⟨n, hn⟩ := ih
        exact ⟨n + 1, by rw [chain, hn, Option.bind_some, projects_iff.mp hstep]⟩
  · rintro ⟨n, hn⟩
    induction n generalizing passed with
    | zero =>
        cases hn
        exact .refl
    | succ n ih =>
        obtain ⟨current, hcurrent, hstep⟩ := Option.bind_eq_some_iff.mp hn
        exact (ih hcurrent).tail (projects_iff.mpr hstep)

/-- The last entity of a chain projects nothing, since what it projects would be there. -/
theorem lastOfChain_iff (hget : m.get? e.name = some e) :
    m.LastOfChain e owner ↔ m.ChainEnds e owner := by
  constructor
  · rintro ⟨n, howner, hnone⟩
    have hreaches := chainReaches_iff.mpr ⟨n, howner⟩
    refine ⟨hreaches, ?_⟩
    rw [chain, howner, Option.bind_some] at hnone
    cases hname : owner.projectionOf with
    | none => rfl
    | some name =>
        obtain ⟨base, hbase⟩ := exists_projects (registered_of_reaches hget hreaches) hname
        rw [hname, Option.bind_some, hbase] at hnone
        cases hnone
  · intro hends
    obtain ⟨n, howner⟩ := chainReaches_iff.mp hends.reaches
    exact ⟨n, howner, by rw [chain, howner, Option.bind_some, hends.stops, Option.bind_none]⟩

/-- A chain is finite if it has a last entity. -/
theorem exists_lastOfChain_iff : (∃ owner, m.LastOfChain e owner) ↔ ∃ n, m.chain e n = none := by
  classical
  constructor
  · rintro ⟨owner, n, -, hnone⟩
    exact ⟨n + 1, hnone⟩
  · intro hfinite
    -- The first length at which the chain is over is not zero, as the entity itself is there.
    obtain ⟨n, hn⟩ : ∃ n, Nat.find hfinite = n + 1 := by
      refine Nat.exists_eq_add_one_of_ne_zero fun hzero => ?_
      have hstart := Nat.find_spec hfinite
      rw [hzero] at hstart
      cases hstart
    have hbefore : m.chain e n ≠ none := Nat.find_min hfinite (by omega)
    obtain ⟨owner, howner⟩ := Option.ne_none_iff_exists'.mp hbefore
    exact ⟨owner, n, howner, hn ▸ Nat.find_spec hfinite⟩

/-! ## Owners, projections and tracked names -/

theorem databaseEntity_eq_ok_iff_last (he : e ∈ m.all) :
    m.databaseEntity e = .ok owner ↔ m.LastOfChain e owner :=
  (databaseEntity_eq_ok_iff (get?_of_mem_all he)).trans
    (lastOfChain_iff (get?_of_mem_all he)).symm

/-- A fault of the schema is reported for the chains that go on for ever. -/
theorem databaseEntity_eq_error_iff (he : e ∈ m.all) :
    (∃ reason, m.databaseEntity e = .error (.invalidSchema e.name reason)) ↔
      ∀ n, m.chain e n ≠ none := by
  have hfinite : (∃ n, m.chain e n = none) ↔ ∃ owner, m.databaseEntity e = .ok owner := by
    rw [← exists_lastOfChain_iff]
    exact exists_congr fun owner => (databaseEntity_eq_ok_iff_last he).symm
  rw [← not_exists, hfinite]
  rcases databaseEntity_cases (get?_of_mem_all he) with ⟨owner, hok, -⟩ | ⟨reason, hfault, -⟩
  · simp [hok]
  · simp [hfault]

theorem endsIn_iff {name : String} (he : e ∈ m.all) :
    m.endsIn name e = true ↔ ∃ owner, m.LastOfChain e owner ∧ owner.name = name := by
  simp only [← databaseEntity_eq_ok_iff_last he, endsIn]
  cases m.databaseEntity e <;> simp

/-- For every entity of a checked model the search for the owner of its table is over after as
many turns as the model has entities.  It finds the last entity of the chain, which projects
nothing, if the chain is finite, and otherwise it reports a fault of the schema and no missing
entity; from what it finds it finds the same.  The projections of an entity stand in the order
of their names, without repetition, and are those whose chains end there; the tracked names
stand in order, without repetition, and are those of the entities in which the chains of
annotated ones end. -/
theorem owners_of_projections (m : Model) :
    (∀ e ∈ m.all,
      (m.turn e.name)^[m.all.length] (.passing [e.name] e) = .ended (m.databaseEntity e) ∧
      (∀ owner, m.databaseEntity e = .ok owner ↔ m.LastOfChain e owner) ∧
      ((∃ owner, m.databaseEntity e = .ok owner) ↔ ∃ n, m.chain e n = none) ∧
      ((∃ reason, m.databaseEntity e = .error (.invalidSchema e.name reason)) ↔
        ∀ n, m.chain e n ≠ none) ∧
      (∀ missing, m.databaseEntity e ≠ .error (.unknownEntity missing)) ∧
      ∀ owner, m.databaseEntity e = .ok owner →
        owner ∈ m.all ∧ owner.projectionOf = none ∧ m.databaseEntity owner = .ok owner) ∧
    (∀ name, (m.projectionsOf name).Pairwise (fun e e' => e.name < e'.name) ∧
      ∀ e, e ∈ m.projectionsOf name ↔
        e ∈ m.all ∧ e.isProjection = true ∧ ∃ owner, m.LastOfChain e owner ∧ owner.name = name) ∧
    m.trackedNames.Pairwise (· < ·) ∧
    ∀ name, name ∈ m.trackedNames ↔
      ∃ e ∈ m.all, e.isAnnotated = true ∧ ∃ owner, m.LastOfChain e owner ∧ owner.name = name := by
  refine ⟨fun e he => ⟨iterate_turn_start he, fun owner => databaseEntity_eq_ok_iff_last he, ?_,
    databaseEntity_eq_error_iff he, ?_, ?_⟩, fun name => ⟨?_, ?_⟩, pairwise_sortedNames _, ?_⟩
  · rw [← exists_lastOfChain_iff]
    exact exists_congr fun owner => databaseEntity_eq_ok_iff_last he
  · intro missing hmissing
    rcases databaseEntity_cases (get?_of_mem_all he) with ⟨owner, hok, -⟩ | ⟨reason, hfault, -⟩
    · cases hmissing.symm.trans hok
    · cases hmissing.symm.trans hfault
  · intro owner howner
    obtain ⟨hget, hstops⟩ := get?_databaseEntity (get?_of_mem_all he) howner
    exact ⟨mem_all_of_get? hget, hstops, databaseEntity_of_projectionOf hstops⟩
  · exact m.pairwise_all.filter _
  · intro e
    rw [projectionsOf, List.mem_filter, Bool.and_eq_true]
    exact and_congr_right fun he => and_congr_right fun _ => endsIn_iff he
  · intro name
    rw [Tracking.mem_trackedNames_iff]
    refine exists_congr fun e => and_congr_right fun he => and_congr_right fun _ => ?_
    simp only [lastOfChain_iff (get?_of_mem_all he)]

/-! ## Shelves -/

namespace Shelves

/-- A view of a view of the shelves, and a draft that leads into two views of each other. -/
def model : Model where
  entities := NameMap.ofList [
    ("Svc.Open", {
      name := "Svc.Open"
      projectionOf := some "Svc.Shelves"
      directive := some (.paths ["label"]) }),
    ("Svc.Shelves", { name := "Svc.Shelves", projectionOf := some "shop.Shelves" }),
    ("shop.Shelves", {
      name := "shop.Shelves"
      elements := [{ name := "ID", isKey := true }, { name := "label" }] }),
    ("Svc.Draft", { name := "Svc.Draft", projectionOf := some "Svc.Left" }),
    ("Svc.Left", { name := "Svc.Left", projectionOf := some "Svc.Right" }),
    ("Svc.Right", { name := "Svc.Right", projectionOf := some "Svc.Left" })]
  checked := by decide

/-- The view of the view leads to the shelves in two steps; the draft leads into a loop that does
not come back to it. -/
theorem owners_of_views : ∃ view ∈ model.all, ∃ draft ∈ model.all,
    view.name = "Svc.Open" ∧ draft.name = "Svc.Draft" ∧
      (model.turn "Svc.Open")^[6] (.passing ["Svc.Open"] view) =
        .ended (model.databaseEntity view) ∧
      (∃ owner, model.databaseEntity view = .ok owner ∧ owner.projectionOf = none ∧
        owner.name = "shop.Shelves") ∧
      (∃ reason, model.databaseEntity draft = .error (.invalidSchema "Svc.Draft" reason)) ∧
      (∀ n, model.chain draft n ≠ none) ∧
      model.trackedNames = ["shop.Shelves"] ∧
      (model.projectionsOf "shop.Shelves").map (·.name) = ["Svc.Open", "Svc.Shelves"] := by
  obtain ⟨view, hview⟩ : ∃ view, model.get? "Svc.Open" = some view := ⟨_, rfl⟩
  obtain ⟨draft, hdraft⟩ : ∃ draft, model.get? "Svc.Draft" = some draft := ⟨_, rfl⟩
  have hchains := (owners_of_projections model).1
  have hviewName := name_of_get? hview
  have hdraftName := name_of_get? hdraft
  obtain ⟨hturns, -, -, -, -, hown⟩ := hchains view (mem_all_of_get? hview)
  obtain ⟨-, -, -, hloops, -, -⟩ := hchains draft (mem_all_of_get? hdraft)
  have howner : (model.databaseEntity view).map (·.name) = .ok "shop.Shelves" := by
    cases hview
    decide +kernel
  obtain ⟨owner, hok, hname⟩ := map_eq_ok.mp howner
  have hcycle : (model.databaseEntity draft).map (·.name) = .error (.invalidSchema "Svc.Draft"
      "projection cycle: Svc.Draft -> Svc.Left -> Svc.Right -> Svc.Left") := by
    cases hdraft
    decide +kernel
  have hfault := map_eq_error.mp hcycle
  refine ⟨view, mem_all_of_get? hview, draft, mem_all_of_get? hdraft, hviewName, hdraftName, ?_,
    ⟨owner, hok, (hown owner hok).2.1, hname⟩, ⟨_, hfault⟩,
    hloops.mp ⟨_, hdraftName.symm ▸ hfault⟩, by decide +kernel, by decide +kernel⟩
  rw [hviewName] at hturns
  exact hturns

end Shelves

end Schema.Model

end ChangeTracking
