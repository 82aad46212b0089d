import ChangeTracking.Proofs.Firing.Recording
import Mathlib.Data.List.Induction

/-!
# Histories of runs

A run is any sequence of invocations, of own sets and of sets for compositions alike; its
history is what their outcomes leave behind, one after another.  The main statement ties
the history to the whole run: it keeps every record that was emitted, in order and as
often as it was emitted, unless a later invocation purges its entity and key.
-/

namespace ChangeTracking.Firing

open Plan (Operation TriggerSet)

/-- One invocation of a trigger. -/
structure Invocation where
  set : TriggerSet
  op : Operation
  old : Option Row
  new : Option Row
  store : Store
  skips : Skip.Session

def Invocation.outcome (i : Invocation) : Outcome :=
  fire i.set i.op i.old i.new i.store i.skips

/-- The outcome purges the history that the record belongs to. -/
def Outcome.Purges (o : Outcome) (r : ChangeRecord) : Prop :=
  o.purged = some (r.entity, r.entityKey)

instance (o : Outcome) (r : ChangeRecord) : Decidable (o.Purges r) :=
  inferInstanceAs (Decidable (o.purged = some (r.entity, r.entityKey)))

/-- What the trigger of the invocation sees. -/
def Invocation.scene (i : Invocation) : Scene := Scene.of i.op i.old i.new i.store i.skips

/-- The history that a run makes of the one before it. -/
def historyAfter (history : List ChangeRecord) (run : List Invocation) : List ChangeRecord :=
  (run.map Invocation.outcome).foldl applyOutcome history

/-- The history that a run leaves behind. -/
def historyOf (run : List Invocation) : List ChangeRecord :=
  (run.map Invocation.outcome).foldl applyOutcome []

/-- The records that a run emits, each with the position of its invocation. -/
def emitted (run : List Invocation) : List (ChangeRecord × Nat) :=
  run.zipIdx.flatMap fun i => i.1.outcome.records.map fun r => (r, i.2)

/-- An invocation after the position purges the history that the record belongs to. -/
def IsPurgedAfter (run : List Invocation) (position : Nat) (r : ChangeRecord) : Prop :=
  ∃ i ∈ run.drop (position + 1), i.outcome.Purges r

instance (run : List Invocation) (position : Nat) (r : ChangeRecord) :
    Decidable (IsPurgedAfter run position r) :=
  inferInstanceAs (Decidable (∃ i ∈ run.drop (position + 1), i.outcome.Purges r))

/-! ## One more invocation -/

theorem applyOutcome_eq (history : List ChangeRecord) (o : Outcome) :
    applyOutcome history o = (history.filter fun r => ¬ o.Purges r) ++ o.records := by
  cases hpurged : o.purged with
  | none =>
      have hkept : history.filter (fun r => ¬ o.Purges r) = history := by
        rw [List.filter_eq_self]
        intro r _
        simp [Outcome.Purges, hpurged]
      simp only [applyOutcome, hpurged, hkept]
  | some purged =>
      obtain ⟨entity, key⟩ := purged
      have hkept : history.filter (fun r => ¬ o.Purges r) =
          history.filter fun r => !r.isOf entity key := by
        apply List.filter_congr
        intro r _
        have hof : o.Purges r ↔ r.isOf entity key = true := by
          simp only [Outcome.Purges, hpurged, ChangeRecord.isOf, Option.some.injEq,
            Prod.mk.injEq, Bool.and_eq_true, beq_iff_eq]
          exact and_congr eq_comm eq_comm
        simp [hof]
      simp only [applyOutcome, hpurged, hkept]

theorem historyAfter_concat (history : List ChangeRecord) (run : List Invocation)
    (last : Invocation) :
    historyAfter history (run ++ [last]) =
      applyOutcome (historyAfter history run) last.outcome := by
  rw [historyAfter, List.map_append, List.foldl_append]
  rfl

theorem historyOf_concat (run : List Invocation) (last : Invocation) :
    historyOf (run ++ [last]) = applyOutcome (historyOf run) last.outcome :=
  historyAfter_concat [] run last

/-- An invocation emits records of its columns, and only if it does not purge. -/
theorem exists_column_of_mem_records {i : Invocation} {r : ChangeRecord}
    (hr : r ∈ i.outcome.records) :
    i.set.purges i.op = false ∧ ∃ column, r = i.scene.record i.set i.op column := by
  rcases fire_cases i.set i.op i.old i.new i.store i.skips with
    hfire | ⟨-, key, hfire⟩ | ⟨hpurges, hfire⟩
  · rw [Invocation.outcome, hfire] at hr
    cases hr
  · rw [Invocation.outcome, hfire] at hr
    cases hr
  · rw [Invocation.outcome, hfire] at hr
    obtain ⟨column, -, rfl⟩ := List.mem_map.mp hr
    exact ⟨hpurges, column, rfl⟩

theorem emitted_concat (run : List Invocation) (last : Invocation) :
    emitted (run ++ [last]) =
      emitted run ++ last.outcome.records.map fun r => (r, run.length) := by
  rw [emitted, List.zipIdx_append, List.flatMap_append, ← emitted]
  simp

theorem position_lt_of_mem_emitted {run : List Invocation} {e : ChangeRecord × Nat}
    (he : e ∈ emitted run) : e.2 < run.length := by
  rw [emitted, List.mem_flatMap] at he
  obtain ⟨i, hi, he⟩ := he
  obtain ⟨r, -, rfl⟩ := List.mem_map.mp he
  have hposition := (List.mem_zipIdx' hi).1
  exact hposition

/-- One more invocation purges what was purged before, and the history of its own key. -/
theorem isPurgedAfter_concat {run : List Invocation} {position : Nat}
    (h : position < run.length) (last : Invocation) (r : ChangeRecord) :
    IsPurgedAfter (run ++ [last]) position r ↔
      IsPurgedAfter run position r ∨ last.outcome.Purges r := by
  have hdrop : (run ++ [last]).drop (position + 1) = run.drop (position + 1) ++ [last] :=
    List.drop_append_of_le_length h
  simp only [IsPurgedAfter, hdrop, List.mem_append, List.mem_singleton, or_and_right, exists_or,
    exists_eq_left]

/-- Nothing comes after the last invocation. -/
theorem not_isPurgedAfter_length (run : List Invocation) (last : Invocation)
    (r : ChangeRecord) : ¬ IsPurgedAfter (run ++ [last]) run.length r := by
  rintro ⟨i, hi, -⟩
  have hdrop : (run ++ [last]).drop (run.length + 1) = [] := by simp
  rw [hdrop] at hi
  cases hi

/-! ## Whole runs -/

/-- The records of a run that no later invocation purges. -/
def survivors (run : List Invocation) : List ChangeRecord :=
  ((emitted run).filter fun e => ¬ IsPurgedAfter run e.2 e.1).map Prod.fst

theorem survivors_concat (run : List Invocation) (last : Invocation) :
    survivors (run ++ [last]) = applyOutcome (survivors run) last.outcome := by
  -- An earlier record is lost once any invocation behind it purges, the last one included.
  have hearlier : (emitted run).filter (fun e => ¬ IsPurgedAfter (run ++ [last]) e.2 e.1) =
      ((emitted run).filter fun e => ¬ IsPurgedAfter run e.2 e.1).filter
        fun e => ¬ last.outcome.Purges e.1 := by
    rw [List.filter_filter]
    apply List.filter_congr
    intro e he
    have hconcat := isPurgedAfter_concat (position_lt_of_mem_emitted he) last e.1
    rw [Bool.eq_iff_iff]
    simp only [hconcat, Bool.and_eq_true, decide_eq_true_eq, not_or]
    exact and_comm
  have hlast : (last.outcome.records.map fun r => (r, run.length)).filter
      (fun e => ¬ IsPurgedAfter (run ++ [last]) e.2 e.1) =
      last.outcome.records.map fun r => (r, run.length) := by
    rw [List.filter_eq_self]
    intro e he
    obtain ⟨r, -, rfl⟩ := List.mem_map.mp he
    exact decide_eq_true (not_isPurgedAfter_length run last r)
  have hrecords : (last.outcome.records.map fun r => (r, run.length)).map Prod.fst =
      last.outcome.records := by
    rw [List.map_map]
    exact List.map_id _
  rw [survivors, emitted_concat, List.filter_append, hearlier, hlast, List.map_append, hrecords,
    applyOutcome_eq, survivors, List.filter_map]
  rfl

theorem historyOf_eq_survivors (run : List Invocation) : historyOf run = survivors run := by
  -- The last invocation acts on all that the others leave, so it is taken off first.
  induction run using List.reverseRecOn with
  | nil => rfl
  | append_singleton run last ih => rw [historyOf_concat, survivors_concat, ih]

/-- Where deletes cascade, no invocation emits a record of a delete. -/
theorem modification_ne_delete (i : Invocation) (h : i.set.deletePolicy = .cascade)
    (r : ChangeRecord) (hr : r ∈ i.outcome.records) : r.modification ≠ "delete" := by
  obtain ⟨hpurges, column, rfl⟩ := exists_column_of_mem_records hr
  show i.op.modification ≠ "delete"
  cases hop : i.op with
  | create => decide
  | update => decide
  | delete =>
      rw [TriggerSet.purges, hop, h] at hpurges
      cases hpurges

/-- The history of a run consists of the records that the run emits, in the order of
emission and as often as they are emitted, except those whose entity and key a strictly
later invocation purges; and where deletes cascade throughout, no record tells of a
delete. -/
theorem historyOf_eq_emitted_not_purged (run : List Invocation) :
    historyOf run =
        ((emitted run).filter fun e => ¬ IsPurgedAfter run e.2 e.1).map Prod.fst ∧
      ((∀ i ∈ run, i.set.deletePolicy = .cascade) →
        ∀ r ∈ historyOf run, r.modification ≠ "delete") := by
  refine ⟨historyOf_eq_survivors run, ?_⟩
  -- What is kept was emitted by one of the invocations, and none of these tells of a delete.
  intro hcascade r hr
  rw [historyOf_eq_survivors] at hr
  obtain ⟨e, he, rfl⟩ := List.mem_map.mp hr
  obtain ⟨i, hi, he⟩ := List.mem_flatMap.mp (List.mem_filter.mp he).1
  obtain ⟨r, hemitted, rfl⟩ := List.mem_map.mp he
  have hmem : i.1 ∈ run := List.fst_mem_of_mem_zipIdx hi
  exact modification_ne_delete i.1 (hcascade i.1 hmem) r hemitted

/-- Item triggers that purge the history of a deleted item. -/
def cascadingTriggers : TriggerSet := { itemTriggers with deletePolicy := .cascade }

def blankItem : Row := ⟨[("ID", "i2"), ("hall", "7"), ("shelf", "3")]⟩

/-- Two items are created, the first is deleted, and created again. -/
def itemRun : List Invocation := [
  ⟨cascadingTriggers, .create, none, some penItem, productStore, {}⟩,
  ⟨cascadingTriggers, .create, none, some blankItem, productStore, {}⟩,
  ⟨cascadingTriggers, .delete, some penItem, none, productStore, {}⟩,
  ⟨cascadingTriggers, .create, none, some penItem, productStore, notesSkipped⟩]

/-- The delete purges what the first invocation emitted, and spares the other item as well
as the second creation of its own item. -/
theorem historyOf_itemRun :
    (historyOf itemRun).map (fun r => (r.entityKey, r.attributeName)) =
        [(some "i2", "storage"), (some "i1", "product"), (some "i1", "title")] ∧
      (emitted itemRun).length = 6 ∧
      (∀ i ∈ itemRun, i.set.deletePolicy = .cascade) ∧
      historyOf itemRun =
        ((emitted itemRun).filter fun e => ¬ IsPurgedAfter itemRun e.2 e.1).map Prod.fst ∧
      ∀ r ∈ historyOf itemRun, r.modification ≠ "delete" := by
  have hcascade : ∀ i ∈ itemRun, i.set.deletePolicy = .cascade := by
    intro i hi
    simp only [itemRun, List.mem_cons, List.not_mem_nil, or_false] at hi
    rcases hi with rfl | rfl | rfl | rfl <;> rfl
  obtain ⟨hhistory, hmodification⟩ := historyOf_eq_emitted_not_purged itemRun
  exact ⟨by decide, by decide, hcascade, hhistory, hmodification hcascade⟩

end ChangeTracking.Firing
