import ChangeTracking.Proofs.Firing.Binding
import ChangeTracking.Proofs.Firing.Recording

/-!
# Suppression

Two invocations see the same rows and the same store, and the one skips whatever the other
skips.  No value depends on what is skipped, so the invocation that skips more does nothing,
if a flag of the whole set is set, or else leaves out the records of the columns whose flag is
set and keeps all others as they are.
-/

namespace ChangeTracking.Firing

open Plan (Expr Operation RowRole TrackedColumn TriggerSet)

/-! ## What does not depend on the skipped scopes -/

namespace Scene

/-- The same scene under another skip session. -/
def withSkips (s : Scene) (skips : Skip.Session) : Scene := { s with skips := skips }

@[simp] theorem withSkips_skips (s : Scene) (skips : Skip.Session) :
    (s.withSkips skips).skips = skips := rfl

variable (s : Scene) (skips : Skip.Session)

theorem readsAlike_withSkips (e : Expr) :
    e.Everywhere (ReadsAlike s (s.withSkips skips) .record) := by
  intro t _
  cases t with
  | column role name => cases role <;> rfl
  | _ => trivial

/-- Both sides are the value of the expression bound to the row that is the subject already. -/
@[simp] theorem value_withSkips (e : Expr) : (s.withSkips skips).value e = s.value e :=
  have hbind (skips : Skip.Session) : s.value (e.bind .record) = (s.withSkips skips).value e :=
    value_bind e rfl (s.readsAlike_withSkips skips e)
  (hbind skips).symm.trans (hbind s.skips)

theorem holds_columnChanged_withSkips (column : String) :
    (s.withSkips skips).holds (Plan.columnChanged column) =
      s.holds (Plan.columnChanged column) := by
  simp only [Plan.columnChanged, holds, value_withSkips]

@[simp] theorem holds_condition_withSkips (c : TrackedColumn) (op : Operation) :
    (s.withSkips skips).holds (c.condition op) = s.holds (c.condition op) := by
  cases op with
  | create => simp only [TrackedColumn.condition, holds_present, value_withSkips]
  | delete => simp only [TrackedColumn.condition, holds_present, value_withSkips]
  | update =>
      rw [TrackedColumn.condition]
      split
      · simp only [holds, value_withSkips]
      · simp only [holds_anyOf, List.any_map, Function.comp_def, holds_columnChanged_withSkips]

@[simp] theorem record_withSkips (set : TriggerSet) (op : Operation) :
    (s.withSkips skips).record set op = s.record set op := by
  funext column
  simp only [record, value_withSkips]

end Scene

/-! ## Skipping more -/

/-- Every scope that the one session skips is skipped by the other too. -/
def SkipsMore (skips skips' : Skip.Session) : Prop :=
  ∀ scope ∈ skips.scopes, scope ∈ skips'.scopes

variable {skips skips' : Skip.Session}

theorem SkipsMore.isFlagSet (h : SkipsMore skips skips') {name : String}
    (hname : skips.isFlagSet name = true) : skips'.isFlagSet name = true := by
  obtain ⟨scope, hscope, hflag⟩ := List.any_eq_true.mp hname
  exact List.any_eq_true.mpr ⟨scope, h scope hscope, hflag⟩

theorem SkipsMore.isSuppressed (h : SkipsMore skips skips') {set : TriggerSet}
    (hset : isSuppressed set skips = true) : isSuppressed set skips' = true := by
  obtain ⟨flag, hflag, hisset⟩ := List.any_eq_true.mp hset
  exact List.any_eq_true.mpr ⟨flag, hflag, h.isFlagSet hisset⟩

/-- Where more is skipped, the columns with a flag are left out and the others stay. -/
theorem SkipsMore.recordedColumns (h : SkipsMore skips skips') {s : Scene} (hs : s.skips = skips)
    (set : TriggerSet) (op : Operation) :
    recordedColumns (s.withSkips skips') set op =
      (recordedColumns s set op).filter fun column => !skips'.isFlagSet column.skipFlag := by
  subst hs
  simp only [Firing.recordedColumns, List.filter_filter, Scene.holds_condition_withSkips,
    Scene.withSkips_skips]
  refine List.filter_congr fun column _ => ?_
  cases hflag : s.skips.isFlagSet column.skipFlag with
  | true => simp [h.isFlagSet hflag]
  | false => simp [Bool.and_comm]

/-! ## Two invocations -/

variable (set : TriggerSet) (op : Operation) (old new : Option Row) (store : Store)

/-- Let the second session skip whatever the first one skips.  If the guard of the set holds
under the second session, the invocation does nothing.  If it does not, the invocation purges
what it purges under the first session; and of the columns for which it emits a record under
the first session, those whose flag is not set under the second keep theirs, field by field
and in order, and the others have none. -/
theorem fire_of_skipsMore (h : SkipsMore skips skips') :
    ((Scene.of op old new store skips').holds set.skipGuard = true →
      fire set op old new store skips' = {}) ∧
    ((Scene.of op old new store skips').holds set.skipGuard = false →
      (fire set op old new store skips').purged = (fire set op old new store skips).purged ∧
      (fire set op old new store skips).records =
        (emittedColumns set op old new store skips).map
          ((Scene.of op old new store skips).record set op) ∧
      (fire set op old new store skips').records =
        ((emittedColumns set op old new store skips).filter
            fun column => !skips'.isFlagSet column.skipFlag).map
          ((Scene.of op old new store skips).record set op)) := by
  have hscene : Scene.of op old new store skips' =
      (Scene.of op old new store skips).withSkips skips' := rfl
  rw [holds_skipGuard]
  refine ⟨fun hflags => fire_eq_empty set op old new store skips' (Or.inr hflags),
    fun hflags => ?_⟩
  -- What is not suppressed where more is skipped is not suppressed where less is.
  have hflags : isSuppressed set skips' = false := hflags
  have hfewer : isSuppressed set skips = false := by
    by_contra hset
    rw [h.isSuppressed (Bool.not_eq_false _ ▸ hset)] at hflags
    cases hflags
  refine ⟨?_, records_fire set op old new store skips, ?_⟩
  · rw [purged_fire, purged_fire, hflags, hfewer, hscene, Scene.value_withSkips]
  · rw [records_fire, hscene, Scene.record_withSkips, emittedColumns, emittedColumns, hflags,
      hfewer, hscene]
    split
    · rw [h.recordedColumns rfl]
    · rfl

/-- An item is created; once its note is skipped, the record of the note is left out. -/
theorem fire_penItem_of_skipsMore :
    SkipsMore {} notesSkipped ∧
      (Scene.of .create none (some penItem) productStore notesSkipped).holds
        itemTriggers.skipGuard = false ∧
      (fire itemTriggers .create none (some penItem) productStore notesSkipped).records =
        ((emittedColumns itemTriggers .create none (some penItem) productStore {}).filter
            fun column => !notesSkipped.isFlagSet column.skipFlag).map
          ((Scene.of .create none (some penItem) productStore {}).record itemTriggers .create) ∧
      (fire itemTriggers .create none (some penItem) productStore {}).records.map
        (·.attributeName) = ["product", "title", "note"] ∧
      (fire itemTriggers .create none (some penItem) productStore notesSkipped).records.map
        (·.attributeName) = ["product", "title"] := by
  have hmore : SkipsMore {} notesSkipped := fun scope hscope => by cases hscope
  have hguard : (Scene.of .create none (some penItem) productStore notesSkipped).holds
      itemTriggers.skipGuard = false := by decide
  have hfire := (fire_of_skipsMore itemTriggers .create none (some penItem) productStore
    hmore).2 hguard
  exact ⟨hmore, hguard, hfire.2.2, by decide, by decide⟩

end ChangeTracking.Firing
