import ChangeTracking.Proofs.Firing.Histories
import ChangeTracking.Proofs.Firing.RootKeys
import Mathlib.Data.List.Flatten
import Mathlib.Data.List.Infix

/-!
# Cascading deletes

A cascading delete removes the history of its key, and keys are compared by their texts.
The main statement says what is left of a run of creates and updates: everything but the
records of the same key text, and so all records of other keys where no key part holds the
separator or ends in the beginning of one.  The separator is not escaped, so other keys can
have the same text.
-/

namespace ChangeTracking.Plan

/-! ## Key texts -/

/-- A separator put behind the text is the first one there: the text neither holds a separator
nor ends in the beginning of one. -/
def IsDelimited (text : String) : Prop :=
  ¬ keySeparator.toList <:+: (text ++ keySeparator).toList.dropLast

instance (text : String) : Decidable (IsDelimited text) :=
  inferInstanceAs (Decidable (¬ _ <:+: _))

/-- All parts of a key but the last are delimited. -/
def AreDelimited (parts : List (Option String)) : Prop :=
  ∀ part ∈ parts.dropLast, ∀ text ∈ part, IsDelimited text

instance (parts : List (Option String)) : Decidable (AreDelimited parts) :=
  inferInstanceAs (Decidable (∀ part ∈ parts.dropLast, ∀ text ∈ part, IsDelimited text))

/-- Of two texts that go on alike behind their separators, neither is longer. -/
theorem length_le_of_append_separator {a b s t : List Char}
    (ha : ¬ keySeparator.toList <:+: (b ++ keySeparator.toList).dropLast)
    (h : a ++ keySeparator.toList ++ s = b ++ keySeparator.toList ++ t) : b.length ≤ a.length := by
  by_contra hlt
  -- The longer text would hold the separator behind the shorter one.
  have hlength : (a ++ keySeparator.toList).length ≤
      ((b ++ keySeparator.toList).dropLast).length := by
    rw [List.length_dropLast, List.length_append, List.length_append]
    omega
  have hleft : a ++ keySeparator.toList <+: b ++ keySeparator.toList ++ t :=
    h ▸ List.prefix_append _ s
  have hright : (b ++ keySeparator.toList).dropLast <+: b ++ keySeparator.toList ++ t :=
    (List.dropLast_prefix _).trans (List.prefix_append _ t)
  have hprefix := List.prefix_of_prefix_length_le hleft hright hlength
  exact ha ((List.suffix_append a _).isInfix.trans hprefix.isInfix)

theorem append_separator_inj {a b s t : String} (ha : IsDelimited a) (hb : IsDelimited b)
    (h : a ++ keySeparator ++ s = b ++ keySeparator ++ t) : a = b ∧ s = t := by
  rw [IsDelimited, String.toList_append] at ha hb
  have hlists := congrArg String.toList h
  simp only [String.toList_append] at hlists
  have hlength : a.toList.length = b.toList.length :=
    Nat.le_antisymm (length_le_of_append_separator ha hlists.symm)
      (length_le_of_append_separator hb hlists)
  rw [List.append_assoc, List.append_assoc] at hlists
  obtain ⟨hab, hrest⟩ := List.append_inj hlists hlength
  exact ⟨String.toList_inj.mp hab, String.toList_inj.mp (List.append_cancel_left hrest)⟩

/-- Equally many delimited parts can be read off their text. -/
theorem intercalate_inj {xs ys : List String} (hlength : xs.length = ys.length)
    (hx : ∀ x ∈ xs.dropLast, IsDelimited x) (hy : ∀ y ∈ ys.dropLast, IsDelimited y)
    (h : keySeparator.intercalate xs = keySeparator.intercalate ys) : xs = ys := by
  match xs, ys with
  | [], [] => rfl
  | [x], [y] => simpa [String.intercalate_singleton] using h
  | x :: x' :: xs, y :: y' :: ys =>
      rw [String.intercalate_cons_cons, String.intercalate_cons_cons] at h
      obtain ⟨hhead, htail⟩ := List.forall_mem_cons.mp hx
      obtain ⟨hhead', htail'⟩ := List.forall_mem_cons.mp hy
      obtain ⟨hheads, hrest⟩ := append_separator_inj hhead hhead' h
      rw [hheads, intercalate_inj (Nat.succ.inj hlength) htail htail' hrest]

theorem joinKey_eq_some_iff {parts : List (Option String)} {key : String} :
    joinKey parts = some key ↔
      ∃ texts, parts = texts.map some ∧ keySeparator.intercalate texts = key := by
  have hparts : ∀ texts, parts.mapM id = some texts ↔ parts = texts.map some := by
    induction parts with
    | nil => intro texts; cases texts <;> simp
    | cons part parts ih =>
        intro texts
        cases part <;> cases texts <;> simp [List.mapM_cons, Option.bind_eq_some_iff, ih, and_comm]
  simp only [joinKey, Option.map_eq_some_iff, hparts]

/-- Keys of equally many delimited parts that are all there differ in their texts. -/
theorem joinKey_inj {xs ys : List (Option String)} (hlength : xs.length = ys.length)
    (hx : AreDelimited xs) (hy : AreDelimited ys) (hthere : none ∉ xs)
    (h : joinKey xs = joinKey ys) : xs = ys := by
  have hsome : (joinKey xs).isSome = true := by
    rw [isSome_joinKey, List.all_eq_true]
    intro part hpart
    exact Option.isSome_iff_ne_none.mpr fun hnone => hthere (hnone ▸ hpart)
  obtain ⟨key, hkey⟩ := Option.isSome_iff_exists.mp hsome
  obtain ⟨texts, rfl, htext⟩ := joinKey_eq_some_iff.mp hkey
  obtain ⟨texts', rfl, htext'⟩ := joinKey_eq_some_iff.mp (h ▸ hkey)
  have hmem : ∀ {texts : List String}, AreDelimited (texts.map some) →
      ∀ text ∈ texts.dropLast, IsDelimited text := by
    intro texts hdelimited text htext
    refine hdelimited (some text) ?_ text rfl
    rw [← List.map_dropLast]
    exact List.mem_map_of_mem htext
  rw [intercalate_inj (by simpa using hlength) (hmem hx) (hmem hy) (htext.trans htext'.symm)]

end ChangeTracking.Plan

namespace ChangeTracking.Firing

open Plan (AreDelimited Operation TriggerSet encodeKey joinKey planEntity)
open Schema (Model)
open Tracking (Descriptor analyze)

/-! ## The key of an invocation -/

/-- The key columns of the row that the invocation is about. -/
def Invocation.keyValues (i : Invocation) : List (Option String) :=
  i.set.primaryKey.map fun column => i.scene.subject.bind (·.get? column)

theorem Invocation.length_keyValues (i : Invocation) :
    i.keyValues.length = i.set.primaryKey.length := List.length_map _

theorem Invocation.value_entityKey {i : Invocation}
    (hkey : i.set.key = encodeKey i.set.primaryKey .subject) :
    i.scene.value (i.set.identity .record).entityKey = joinKey i.keyValues := by
  have honRow : i.set.key.OnRow .subject := hkey ▸ Plan.onRow_encodeKey _ .subject
  show i.scene.value (i.set.key.bind .record) = _
  rw [i.scene.value_bind_of_onRow .record honRow, hkey, Store.valueOver_key]
  rfl

/-- The records of an invocation carry the key of its row. -/
theorem Invocation.key_of_mem_records {i : Invocation}
    (hkey : i.set.key = encodeKey i.set.primaryKey .subject) {r : ChangeRecord}
    (hr : r ∈ i.outcome.records) :
    r.entity = i.set.entity ∧ r.entityKey = joinKey i.keyValues := by
  obtain ⟨-, column, rfl⟩ := exists_column_of_mem_records hr
  exact ⟨rfl, Invocation.value_entityKey hkey⟩

/-- Creates and updates purge nothing. -/
theorem Invocation.purged_eq_none {i : Invocation} (hop : i.op ≠ .delete) :
    i.outcome.purged = none := by
  have hpurges : i.set.purges i.op = false := by
    rw [TriggerSet.purges, beq_eq_false_iff_ne.mpr hop, Bool.false_and]
  rw [Invocation.outcome, purged_fire, hpurges, Bool.and_false]
  rfl

/-- A cascading delete purges the history of the key of its row, or does nothing. -/
theorem Invocation.outcome_of_delete {i : Invocation}
    (hkey : i.set.key = encodeKey i.set.primaryKey .subject) (hop : i.op = .delete)
    (hcascade : i.set.deletePolicy = .cascade) :
    i.outcome = if i.set.isEnabled .delete && !isSuppressed i.set i.skips then
      { purged := some (i.set.entity, joinKey i.keyValues) } else {} := by
  have hpurges : i.set.purges i.op = true := by
    rw [TriggerSet.purges, hop, hcascade]
    rfl
  rw [← hop, Invocation.outcome]
  cases henabled : i.set.isEnabled i.op with
  | false => exact fire_eq_empty i.set i.op i.old i.new i.store i.skips (Or.inl henabled)
  | true =>
      cases hflags : isSuppressed i.set i.skips with
      | true => exact fire_eq_empty i.set i.op i.old i.new i.store i.skips (Or.inr hflags)
      | false =>
          rw [fire_eq_purge i.set i.op i.old i.new i.store i.skips henabled hflags hpurges,
            ← Invocation.value_entityKey hkey]
          rfl

/-! ## Creates and updates before a delete -/

/-- The invocation creates or updates a row of the set's table that has all key columns. -/
structure WritesKeyed (set : TriggerSet) (i : Invocation) : Prop where
  set : i.set = set
  op : i.op ≠ .delete
  there : none ∉ i.keyValues

/-- Creates and updates leave all records that they emit behind the history before them. -/
theorem historyAfter_writes (history : List ChangeRecord) {run : List Invocation}
    (h : ∀ i ∈ run, i.op ≠ .delete) :
    historyAfter history run = history ++ run.flatMap (·.outcome.records) := by
  induction run generalizing history with
  | nil => exact (List.append_nil history).symm
  | cons i run ih =>
      obtain ⟨hop, hrun⟩ := List.forall_mem_cons.mp h
      have hstep : applyOutcome history i.outcome = history ++ i.outcome.records := by
        rw [applyOutcome, Invocation.purged_eq_none hop]
      rw [List.flatMap_cons, ← List.append_assoc, ← hstep]
      exact ih (applyOutcome history i.outcome) hrun

/-- Taking the records of a key out of what a run emits leaves what the invocations on rows with
other key texts emit. -/
theorem filter_flatMap_records {set : TriggerSet}
    (hkey : set.key = encodeKey set.primaryKey .subject) (key : Option String)
    {run : List Invocation} (hrun : ∀ i ∈ run, i.set = set) :
    (run.flatMap (·.outcome.records)).filter (fun r => !r.isOf set.entity key) =
      (run.filter fun i => joinKey i.keyValues != key).flatMap (·.outcome.records) := by
  -- Invocation by invocation: all its records have its key, so they stay or go together.
  induction run with
  | nil => rfl
  | cons i run ih =>
      obtain ⟨rfl, hrun⟩ := List.forall_mem_cons.mp hrun
      have hof : ∀ r ∈ i.outcome.records,
          (!r.isOf i.set.entity key) = (joinKey i.keyValues != key) := by
        intro r hr
        obtain ⟨hentity, hentityKey⟩ := Invocation.key_of_mem_records hkey hr
        rw [ChangeRecord.isOf, hentity, hentityKey, beq_self_eq_true, Bool.true_and]
        rfl
      rw [List.flatMap_cons, List.filter_append, List.filter_congr hof, ih hrun, List.filter_cons]
      cases joinKey i.keyValues != key with
      | true => rw [List.filter_true, if_pos rfl, List.flatMap_cons]
      | false => rw [List.filter_false, if_neg Bool.false_ne_true, List.nil_append]

variable {set : TriggerSet} {run : List Invocation} {deletion : Invocation}

/-- A cascading delete takes the records of its key text out of what creates and updates left,
unless it does nothing. -/
theorem historyAfter_delete (hkey : set.key = encodeKey set.primaryKey .subject)
    (hcascade : set.deletePolicy = .cascade) (history : List ChangeRecord)
    (hrun : ∀ i ∈ run, WritesKeyed set i) (hset : deletion.set = set) (hop : deletion.op = .delete) :
    historyAfter history (run ++ [deletion]) =
      if set.isEnabled .delete && !isSuppressed set deletion.skips then
        (history.filter fun r => !r.isOf set.entity (joinKey deletion.keyValues)) ++
          (run.filter fun i => joinKey i.keyValues != joinKey deletion.keyValues).flatMap
            (·.outcome.records)
      else history ++ run.flatMap (·.outcome.records) := by
  subst hset
  rw [historyAfter_concat, historyAfter_writes history fun i hi => (hrun i hi).op,
    Invocation.outcome_of_delete hkey hop hcascade]
  split
  · rw [← filter_flatMap_records hkey _ fun i hi => (hrun i hi).set, ← List.filter_append]
    exact List.append_nil _
  · exact List.append_nil _

/-- Rows of one table that differ in a key column have different key texts, if the parts of their
keys are delimited. -/
theorem WritesKeyed.joinKey_ne {i : Invocation} (h : WritesKeyed set i) (hset : deletion.set = set)
    (hi : AreDelimited i.keyValues) (hdeletion : AreDelimited deletion.keyValues)
    (hdiffer : i.keyValues ≠ deletion.keyValues) :
    joinKey i.keyValues ≠ joinKey deletion.keyValues := by
  have hlength : i.keyValues.length = deletion.keyValues.length := by
    rw [i.length_keyValues, deletion.length_keyValues, h.set, hset]
  exact fun htext => hdiffer (Plan.joinKey_inj hlength hi hdeletion h.there htext)

/-- Where a cascading delete follows creates and updates of the same planned set, every record of
a row that differs from the deleted one in a key column is still there, in the order and as often
as emitted, if the parts of both keys are delimited.  In any case the delete, where it is enabled
and no flag suppresses it, takes away exactly the records whose key has the text of the deleted
one. -/
theorem historyAfter_delete_keeps_other_keys {m : Model} {d : Descriptor} {settings : Settings}
    (hplan : planEntity m d settings = .ok (some set))
    (hcascade : settings.deletePolicy = .cascade) (history : List ChangeRecord)
    (hrun : ∀ i ∈ run, WritesKeyed set i) (hset : deletion.set = set) (hop : deletion.op = .delete) :
    (∀ kept : List Invocation, kept.Sublist run →
        (∀ i ∈ kept, i.keyValues ≠ deletion.keyValues) →
        (∀ i ∈ deletion :: kept, AreDelimited i.keyValues) →
        (kept.flatMap (·.outcome.records)).Sublist
          (historyAfter history (run ++ [deletion]))) ∧
      (set.isEnabled .delete = true → isSuppressed set deletion.skips = false →
        historyAfter history (run ++ [deletion]) =
          (history.filter fun r => !r.isOf set.entity (joinKey deletion.keyValues)) ++
            (run.filter fun i => joinKey i.keyValues != joinKey deletion.keyValues).flatMap
              (·.outcome.records)) := by
  obtain ⟨_, -, hkey, -⟩ := Plan.identity_of_planEntity hplan
  rw [← (Plan.table_of_planEntity hplan).2.2.2] at hkey
  have hpolicy : set.deletePolicy = .cascade :=
    (Plan.deletePolicy_of_planEntity hplan).trans hcascade
  rw [historyAfter_delete hkey hpolicy history hrun hset hop]
  refine ⟨fun kept hkept hdiffer hdelimited => ?_, fun henabled hflags => ?_⟩
  · -- Delimited parts make different texts of different keys, so no record of these rows is purged.
    obtain ⟨hlast, hdelimited⟩ := List.forall_mem_cons.mp hdelimited
    have hspared : kept.filter (fun i => joinKey i.keyValues != joinKey deletion.keyValues) =
        kept :=
      List.filter_eq_self.mpr fun i hi => bne_iff_ne.mpr <|
        (hrun i (hkept.subset hi)).joinKey_ne hset (hdelimited i hi) hlast (hdiffer i hi)
    split
    · have hsublist := (hkept.filter fun i : Invocation =>
        joinKey i.keyValues != joinKey deletion.keyValues).flatMap (·.outcome.records)
      rw [hspared] at hsublist
      exact hsublist.trans (List.sublist_append_right _ _)
    · exact (hkept.flatMap _).trans (List.sublist_append_right _ _)
  · rw [henabled, hflags]
    rfl

/-! ## Orders that are created and deleted -/

/-- An order is created. -/
def orderCreated (set : TriggerSet) (order : Row) : Invocation :=
  ⟨set, .create, none, some order, {}, {}⟩

/-- An order is deleted. -/
def orderDeleted (set : TriggerSet) (order : Row) : Invocation :=
  ⟨set, .delete, some order, none, {}, {}⟩

theorem writesKeyed_orderCreated {own : TriggerSet}
    (hown : planEntity declaredOrder regionOrders {} = .ok (some own)) {order : Row}
    (hthere : none ∉ ["ID", "region"].map order.get?) :
    WritesKeyed own (orderCreated own order) where
  set := rfl
  op := by
    show Operation.create ≠ Operation.delete
    decide
  there := by
    rw [Invocation.keyValues, orderCreated, (Plan.table_of_planEntity hown).2.2.2]
    exact hthere

/-- An order of another region. -/
def overseasOrder : Row := ⟨[("ID", "1"), ("region", "US"), ("status", "new")]⟩

/-- An order whose number holds a separator. -/
def renumberedOrder : Row := ⟨[("ID", "7||EU"), ("region", "north"), ("status", "new")]⟩

/-- An order whose region holds a separator. -/
def rezonedOrder : Row := ⟨[("ID", "7"), ("region", "EU||north"), ("status", "open")]⟩

/-- The triggers of orders record the status of new orders, and purge that of deleted ones. -/
theorem exists_ordersSet : ∃ own, planEntity declaredOrder regionOrders {} = .ok (some own) ∧
    own.isEnabled .delete = true ∧ isSuppressed own {} = false ∧
    (orderCreated own overseasOrder).outcome.records.length = 1 ∧
    (orderCreated own renumberedOrder).outcome.records.length = 1 ∧
    historyAfter [] ([orderCreated own renumberedOrder, orderCreated own rezonedOrder] ++
      [orderDeleted own rezonedOrder]) = [] := by
  obtain ⟨own, hown⟩ := Plan.exists_ownSet (analyze_regionOrders declaredOrder (by simp)) rfl
  have hevaluated : ((planEntity declaredOrder regionOrders {}).map fun planned =>
      planned.map fun set => decide (set.isEnabled .delete = true ∧ isSuppressed set {} = false ∧
        (orderCreated set overseasOrder).outcome.records.length = 1 ∧
        (orderCreated set renumberedOrder).outcome.records.length = 1 ∧
        historyAfter [] ([orderCreated set renumberedOrder, orderCreated set rezonedOrder] ++
          [orderDeleted set rezonedOrder]) = [])) = .ok (some true) := by
    decide +kernel
  rw [hown] at hevaluated
  exact ⟨own, hown, of_decide_eq_true (Option.some.inj (Except.ok.inj hevaluated))⟩

/-- The delete of the order in the one region takes its history, and keeps that of the order which
has the same number in the other. -/
theorem historyAfter_europeanOrder : ∃ own,
    planEntity declaredOrder regionOrders {} = .ok (some own) ∧
      (∀ i ∈ [orderCreated own europeanOrder, orderCreated own overseasOrder],
        WritesKeyed own i) ∧
      (orderCreated own overseasOrder).keyValues = [some "1", some "US"] ∧
      (orderDeleted own europeanOrder).keyValues = [some "1", some "EU"] ∧
      (orderCreated own overseasOrder).outcome.records.length = 1 ∧
      ([orderCreated own overseasOrder].flatMap (·.outcome.records)).Sublist
        (historyAfter [] ([orderCreated own europeanOrder, orderCreated own overseasOrder] ++
          [orderDeleted own europeanOrder])) ∧
      historyAfter [] ([orderCreated own europeanOrder, orderCreated own overseasOrder] ++
          [orderDeleted own europeanOrder]) =
        (orderCreated own overseasOrder).outcome.records := by
  obtain ⟨own, hown, henabled, hflags, hlength, -⟩ := exists_ordersSet
  have hprimary : own.primaryKey = ["ID", "region"] := (Plan.table_of_planEntity hown).2.2.2
  have heuropean : (orderCreated own europeanOrder).keyValues = [some "1", some "EU"] := by
    rw [Invocation.keyValues, orderCreated, hprimary]
    rfl
  have hoverseas : (orderCreated own overseasOrder).keyValues = [some "1", some "US"] := by
    rw [Invocation.keyValues, orderCreated, hprimary]
    rfl
  have hdeleted : (orderDeleted own europeanOrder).keyValues = [some "1", some "EU"] := by
    rw [Invocation.keyValues, orderDeleted, hprimary]
    rfl
  have hrun : ∀ i ∈ [orderCreated own europeanOrder, orderCreated own overseasOrder],
      WritesKeyed own i :=
    List.forall_mem_cons.mpr ⟨writesKeyed_orderCreated hown (by decide),
      List.forall_mem_singleton.mpr (writesKeyed_orderCreated hown (by decide))⟩
  have hdeletion : (orderDeleted own europeanOrder).set = own := rfl
  obtain ⟨hkept, hleft⟩ :=
    historyAfter_delete_keeps_other_keys hown rfl [] hrun hdeletion rfl
  refine ⟨own, hown, hrun, hoverseas, hdeleted, hlength, ?_, ?_⟩
  · refine hkept [orderCreated own overseasOrder] (List.sublist_cons_self _ _) ?_ ?_
    · rw [List.forall_mem_singleton, hoverseas, hdeleted]
      decide
    · rw [List.forall_mem_cons, List.forall_mem_singleton, hoverseas, hdeleted]
      decide
  · rw [hleft henabled hflags, hdeleted, List.filter_cons, List.filter_cons, heuropean, hoverseas]
    exact List.append_nil _

/-- The delete of the one order takes the history of another one, which has another number and
another region. -/
theorem historyAfter_rezonedOrder : ∃ a own r,
    analyze declaredOrder "shop.Orders" {} = .ok a ∧
      planEntity declaredOrder a.descriptor {} = .ok (some own) ∧ "ID" ∈ own.primaryKey ∧
      (∀ i ∈ [orderCreated own renumberedOrder, orderCreated own rezonedOrder],
        WritesKeyed own i) ∧
      renumberedOrder.get? "ID" ≠ rezonedOrder.get? "ID" ∧
      r ∈ (orderCreated own renumberedOrder).outcome.records ∧
      r ∉ historyAfter [] ([orderCreated own renumberedOrder, orderCreated own rezonedOrder] ++
        [orderDeleted own rezonedOrder]) := by
  obtain ⟨own, hown, -, -, -, hlength, hhistory⟩ := exists_ordersSet
  obtain ⟨r, hrecords⟩ := List.length_eq_one_iff.mp hlength
  refine ⟨_, own, r, analyze_regionOrders declaredOrder (by simp), hown, ?_,
    List.forall_mem_cons.mpr ⟨writesKeyed_orderCreated hown (by decide),
      List.forall_mem_singleton.mpr (writesKeyed_orderCreated hown (by decide))⟩, by decide, ?_, ?_⟩
  · rw [(Plan.table_of_planEntity hown).2.2.2]
    decide
  · rw [hrecords]
    exact List.mem_singleton_self r
  · rw [hhistory]
    exact List.not_mem_nil

end ChangeTracking.Firing
