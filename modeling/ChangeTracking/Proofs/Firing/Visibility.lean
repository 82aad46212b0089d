import ChangeTracking.Proofs.Firing.Binding
import ChangeTracking.Proofs.Firing.Recording
import ChangeTracking.Proofs.Plan.Policies
import ChangeTracking.Proofs.Plan.TriggerReads

/-!
# What an invocation can see

A set whose readings a policy allows sees its rows and the store through that policy alone:
where they look the same through it, every value, every guard and so the whole outcome is
the same.
-/

namespace ChangeTracking.Firing

open Plan (Expr Operation Policy RowRole TrackedColumn TriggerSet)

variable {P : Policy} {row row' : Option Row} {store store' : Store}

/-- The two rows have the same in every column that may be read. -/
def SameRow (P : Policy) (row row' : Option Row) : Prop :=
  ∀ column, P.onRow column → row.bind (·.get? column) = row'.bind (·.get? column)

/-- What may be read from a table is the same in both stores. -/
structure SameStore (P : Policy) (store store' : Store) : Prop where
  locale : store.locale = store'.locale
  find (entity column : String) (values : List (String × String))
    (h : P.inTable entity (values.map Prod.fst) column) :
    (store.find? entity values).bind (·.get? column) =
      (store'.find? entity values).bind (·.get? column)

/-! ## Values -/

/-- A record is found by the columns of the filters. -/
theorem Scene.names_of_filterValues {s : Scene} {filters : List (String × Expr)}
    {values : List (String × String)} (h : s.filterValues filters = some values) :
    values.map Prod.fst = filters.map Prod.fst := by
  induction filters generalizing values with
  | nil =>
      rw [filterValues, Option.some.injEq] at h
      rw [← h]
      rfl
  | cons filter filters ih =>
      obtain ⟨column, e⟩ := filter
      rw [filterValues, Option.bind_eq_some_iff] at h
      obtain ⟨value, -, h⟩ := h
      obtain ⟨rest, hrest, rfl⟩ := Option.map_eq_some_iff.mp h
      rw [List.map_cons, List.map_cons, ih hrest]

/-- What the policy allows to be read has the same value over rows and stores that look the
same through it. -/
theorem valueOver_congr (hstore : SameStore P store store') (hrow : SameRow P row row')
    {e : Expr} (he : e.Everywhere P.Allows) :
    store.valueOver row e = store'.valueOver row' e := by
  unfold Store.valueOver
  induction e using Expr.inductOn with
  | null => rfl
  | text value => rfl
  | column role name =>
      have hname : P.onRow name := Expr.everywhere_column.mp he
      cases role with
      | old => rfl
      | new => rfl
      | record => exact hrow name hname
      | subject => exact hrow name hname
  | ofLocal name => rfl
  | locale => exact hstore.locale
  | lookup entity name filters ih =>
      obtain ⟨hallows, hfilters⟩ := Expr.everywhere_lookup.mp he
      have hvalues : (store.sceneOf row).filterValues (filters.map fun f => (f.1, f.2)) =
          (store'.sceneOf row').filterValues (filters.map fun f => (f.1, f.2)) :=
        Scene.filterValues_congr fun f hf => ih f hf (hfilters f hf)
      rw [List.map_id'] at hvalues
      rw [Scene.value, Scene.value, hvalues]
      cases hfound : (store'.sceneOf row').filterValues filters with
      | none => rfl
      | some values =>
          -- The filters have the same values over both rows; what they find looks the same.
          refine hstore.find entity name values ?_
          rw [Scene.names_of_filterValues hfound]
          exact hallows
  | keyJoin parts ih =>
      obtain ⟨-, hparts⟩ := Expr.everywhere_keyJoin.mp he
      have hvalues : (store.sceneOf row).values (parts.map id) =
          (store'.sceneOf row').values (parts.map id) :=
        Scene.values_congr fun e he => ih e he (hparts e he)
      rw [List.map_id] at hvalues
      rw [Scene.value, Scene.value, hvalues]
  | listJoin parts ih =>
      obtain ⟨-, hparts⟩ := Expr.everywhere_listJoin.mp he
      have hvalues : (store.sceneOf row).values (parts.map id) =
          (store'.sceneOf row').values (parts.map id) :=
        Scene.values_congr fun e he => ih e he (hparts e he)
      rw [List.map_id] at hvalues
      rw [Scene.value, Scene.value, hvalues]
  | firstOf parts ih =>
      obtain ⟨-, hparts⟩ := Expr.everywhere_firstOf.mp he
      have hvalue : (store.sceneOf row).firstValue (parts.map id) =
          (store'.sceneOf row').firstValue (parts.map id) :=
        Scene.firstValue_congr fun e he => ih e he (hparts e he)
      rw [List.map_id] at hvalue
      rw [Scene.value, Scene.value, hvalue]
  | encoded rule inner ih =>
      obtain ⟨-, hinner⟩ := Expr.everywhere_encoded.mp he
      rw [Scene.value, Scene.value, ih hinner]

/-! ## Scenes -/

/-- The two scenes look the same through the policy. -/
structure SameScene (P : Policy) (s t : Scene) : Prop where
  rows (role : RowRole) : SameRow P (s.row role) (t.row role)
  store : SameStore P s.store t.store
  skips : s.skips = t.skips

section Scenes

variable {s t : Scene} {set : TriggerSet}

theorem SameScene.value_bind (h : SameScene P s t) (role : RowRole) {e : Expr}
    (hsubject : e.OnRow .subject) (he : e.Everywhere P.Allows) :
    s.value (e.bind role) = t.value (e.bind role) := by
  rw [s.value_bind_of_onRow role hsubject, t.value_bind_of_onRow role hsubject]
  exact valueOver_congr h.store (h.rows role) he

/-- The identity of the set, bound to a row, has the same values in both scenes. -/
theorem SameScene.value_identity (h : SameScene P s t) (hsubject : set.OnSubject)
    (hset : P.AllowsSet set) (role : RowRole) :
    ∀ v ∈ (set.identity role).values, s.value v.2 = t.value v.2 :=
  TriggerSet.forall_mem_identity (p := fun e => s.value e = t.value e) role rfl
    fun e he => h.value_bind role (hsubject.expressions e he) (hset.expressions e he)

theorem SameScene.holds_columnChanged (h : SameScene P s t) {column : String}
    (hcolumn : P.onRow column) :
    s.holds (Plan.columnChanged column) = t.holds (Plan.columnChanged column) := by
  have hold : s.value (.column .old column) = t.value (.column .old column) :=
    h.rows .old column hcolumn
  have hnew : s.value (.column .new column) = t.value (.column .new column) :=
    h.rows .new column hcolumn
  rw [Plan.columnChanged, Scene.holds, Scene.holds, hold, hnew]

theorem SameScene.holds_condition (h : SameScene P s t) {c : TrackedColumn}
    (hsubject : c.OnSubject) (hvalue : c.value.Everywhere P.Allows)
    (hwatched : ∀ column ∈ c.watched, P.onRow column) (op : Operation) :
    s.holds (c.condition op) = t.holds (c.condition op) := by
  have hread (role : RowRole) : s.value (c.valueOn role) = t.value (c.valueOn role) :=
    h.value_bind role hsubject.value hvalue
  cases op with
  | create => rw [TrackedColumn.condition, Scene.holds_present, Scene.holds_present, hread]
  | delete => rw [TrackedColumn.condition, Scene.holds_present, Scene.holds_present, hread]
  | update =>
      rw [TrackedColumn.condition]
      split
      · rw [Scene.holds, Scene.holds, hread, hread]
      · rw [Scene.holds_anyOf, Scene.holds_anyOf, Bool.eq_iff_iff, List.any_eq_true,
          List.any_eq_true]
        refine exists_congr fun g => and_congr_right fun hg => ?_
        obtain ⟨column, hcolumn, rfl⟩ := List.mem_map.mp hg
        rw [h.holds_columnChanged (hwatched column hcolumn)]

/-- The same columns are recorded in both scenes. -/
theorem SameScene.recordedColumns_eq (h : SameScene P s t) (hsubject : set.OnSubject)
    (hset : P.AllowsSet set) (op : Operation) :
    recordedColumns s set op = recordedColumns t set op := by
  obtain ⟨-, -, -, hcolumns⟩ := TriggerSet.forall_mem_expressions.mp hset.expressions
  refine List.filter_congr fun c hc => ?_
  rw [h.holds_condition (hsubject.columns c hc) (hcolumns c hc).1 (hset.watched c hc), h.skips]

/-- The same is recorded of a column in both scenes. -/
theorem SameScene.record_eq (h : SameScene P s t) (hsubject : set.OnSubject)
    (hset : P.AllowsSet set) (op : Operation) {c : TrackedColumn} (hc : c ∈ set.columns) :
    s.record set op c = t.record set op c := by
  obtain ⟨-, -, -, hcolumns⟩ := TriggerSet.forall_mem_expressions.mp hset.expressions
  have hvalue (role : RowRole) : s.value (c.valueOn role) = t.value (c.valueOn role) :=
    h.value_bind role (hsubject.columns c hc).value (hcolumns c hc).1
  have hlabel (role : RowRole) : s.value (c.labelOn role) = t.value (c.labelOn role) := by
    unfold TrackedColumn.labelOn
    split
    · rename_i label hsome
      exact h.value_bind role ((hsubject.columns c hc).label label hsome)
        ((hcolumns c hc).2 label hsome)
    · rfl
  have hidentity := h.value_identity hsubject hset .record
  simp only [Plan.Identity.values, List.forall_mem_cons] at hidentity
  obtain ⟨hentityKey, hobjectId, hrootKey, hrootObjectId, -⟩ := hidentity
  have hnull : s.value .null = t.value .null := rfl
  unfold Scene.record
  cases op <;>
    simp only [TrackedColumn.transition, hvalue, hlabel, hnull, hentityKey, hobjectId, hrootKey,
      hrootObjectId]

end Scenes

/-! ## Outcomes -/

/-- A set whose readings the policy allows fires alike over rows and stores that look the same
through it. -/
theorem fire_congr {set : TriggerSet} (hsubject : set.OnSubject) (hset : P.AllowsSet set)
    {old old' new new' : Option Row} (hold : SameRow P old old') (hnew : SameRow P new new')
    (hstore : SameStore P store store') (op : Operation) (skips : Skip.Session) :
    fire set op old new store skips = fire set op old' new' store' skips := by
  have hscene : SameScene P (Scene.of op old new store skips)
      (Scene.of op old' new' store' skips) := by
    refine ⟨fun role => ?_, hstore, rfl⟩
    have hrecord : SameRow P (Scene.of op old new store skips).subject
        (Scene.of op old' new' store' skips).subject := by
      cases op with
      | create => exact hnew
      | update => exact hnew
      | delete => exact hold
    -- The record at hand is one of the two rows, which one depends on the operation.
    cases role with
    | old => exact hold
    | new => exact hnew
    | record => exact hrecord
    | subject => exact hrecord
  have hentityKey : (Scene.of op old new store skips).value (set.identity .record).entityKey =
      (Scene.of op old' new' store' skips).value (set.identity .record).entityKey :=
    hscene.value_identity hsubject hset .record _ List.mem_cons_self
  have hrecords : (recordedColumns (Scene.of op old new store skips) set op).map
        ((Scene.of op old new store skips).record set op) =
      (recordedColumns (Scene.of op old' new' store' skips) set op).map
        ((Scene.of op old' new' store' skips).record set op) := by
    rw [hscene.recordedColumns_eq hsubject hset]
    refine List.map_congr_left fun c hc => ?_
    exact hscene.record_eq hsubject hset op (List.mem_filter.mp hc).1
  rw [fire_eq, fire_eq, hentityKey, hrecords]

end ChangeTracking.Firing
