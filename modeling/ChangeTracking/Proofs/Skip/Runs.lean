import ChangeTracking.Proofs.Skip.Statements
import ChangeTracking.Skip.Session

/-!
# Runs of skip sessions

A transaction skips scopes, publishes them and takes them back, in any order.  The updates
that it asks for are carried out on the values of a database session.  The main statement
says that the session knows the published scopes and no others, that no flag is set twice
or cleared without need, and that nothing is left behind.
-/

namespace ChangeTracking.Skip

/-! ## Sessions of the database -/

/-- The values of a database session. -/
abbrev Values := String → Option String

/-- The values once an update is carried out, if the database knows what it is about. -/
def perform (backend : Backend) (values : Values) (update : SessionUpdate) : Option Values :=
  (assigned? backend update).map fun (key, value) name =>
    if name = key then value else values name

def performAll (backend : Backend) (values : Values) (updates : List SessionUpdate) :
    Option Values :=
  updates.foldlM (perform backend) values

/-- A trigger finds the flag set. -/
def isSet (backend : Backend) (quoted : Bool) (values : Values) (flag : String) : Bool :=
  (tested? backend quoted flag).bind values == some "true"

variable {backend : Backend} {quoted : Bool} {values values' : Values}

theorem isSet_flagName (s : Scope) :
    isSet backend quoted values s.flagName = (values (s.sessionKey backend) == some "true") := by
  rw [isSet, tested?_flagName, Option.bind_some]

theorem exists_perform (backend : Backend) (values : Values) (s : Scope) :
    (∃ next, perform backend values (setFlag backend s.flagName) = some next) ∧
      ∃ next, perform backend values (resetFlag backend s.flagName) = some next := by
  constructor
  · exact ⟨_, by rw [perform, assigned?_setFlag, Option.map_some]⟩
  · exact ⟨_, by rw [perform, assigned?_resetFlag, Option.map_some]⟩

/-- Setting a flag sets it and leaves the others. -/
theorem isSet_setFlag {s : Scope}
    (h : perform backend values (setFlag backend s.flagName) = some values') (t : Scope) :
    isSet backend quoted values' t.flagName =
      (t.flagName == s.flagName || isSet backend quoted values t.flagName) := by
  rw [perform, assigned?_setFlag, Option.map_some, Option.some.injEq] at h
  subst h
  rw [isSet_flagName, isSet_flagName]
  by_cases h : t.flagName = s.flagName
  · simp [h, (sessionKey_inj backend).mpr h]
  · simp [h, (sessionKey_inj backend).not.mpr h]

theorem clearedValue_ne (backend : Backend) : clearedValue backend ≠ some "true" := by
  cases backend <;> decide

/-- Clearing a flag clears it and leaves the others. -/
theorem isSet_resetFlag {s : Scope}
    (h : perform backend values (resetFlag backend s.flagName) = some values') (t : Scope) :
    isSet backend quoted values' t.flagName =
      (t.flagName != s.flagName && isSet backend quoted values t.flagName) := by
  have hcleared := clearedValue_ne backend
  rw [perform, assigned?_resetFlag, Option.map_some, Option.some.injEq] at h
  subst h
  rw [isSet_flagName, isSet_flagName]
  by_cases h : t.flagName = s.flagName
  · simp [h, (sessionKey_inj backend).mpr h, hcleared]
  · simp [h, (sessionKey_inj backend).not.mpr h]

/-! ## Updates and their flags -/

/-- An update is about one flag, and does one thing to it. -/
theorem assigned?_inj {u : SessionUpdate} {s t : Scope} {value value' : Option String}
    (hs : assigned? backend u = some (s.sessionKey backend, value))
    (ht : assigned? backend u = some (t.sessionKey backend, value')) :
    s.flagName = t.flagName ∧ value = value' := by
  rw [hs, Option.some.injEq, Prod.mk.injEq] at ht
  exact ⟨(sessionKey_inj backend).mp ht.1, ht.2⟩

theorem setFlag_inj {s t : Scope}
    (h : setFlag backend s.flagName = setFlag backend t.flagName) : s.flagName = t.flagName := by
  have hs := assigned?_setFlag backend s
  rw [h] at hs
  exact (assigned?_inj hs (assigned?_setFlag backend t)).1

theorem resetFlag_inj {s t : Scope}
    (h : resetFlag backend s.flagName = resetFlag backend t.flagName) :
    s.flagName = t.flagName := by
  have hs := assigned?_resetFlag backend s
  rw [h] at hs
  exact (assigned?_inj hs (assigned?_resetFlag backend t)).1

theorem setFlag_ne_resetFlag {s t : Scope} :
    setFlag backend s.flagName ≠ resetFlag backend t.flagName := by
  intro h
  have hs := assigned?_setFlag backend s
  rw [h] at hs
  exact clearedValue_ne backend (assigned?_inj hs (assigned?_resetFlag backend t)).2.symm

/-! ## Updates in order -/

/-- The updates lead from the first values to the last ones; each sets a flag that is not
set, or clears one that is. -/
inductive Leads (backend : Backend) (quoted : Bool) : Values → List SessionUpdate → Values → Prop
  | nothing (values : Values) : Leads backend quoted values [] values
  | set {values next last : Values} {updates : List SessionUpdate} (s : Scope)
      (hclear : isSet backend quoted values s.flagName = false)
      (hperform : perform backend values (setFlag backend s.flagName) = some next)
      (hrest : Leads backend quoted next updates last) :
      Leads backend quoted values (setFlag backend s.flagName :: updates) last
  | clear {values next last : Values} {updates : List SessionUpdate} (s : Scope)
      (hset : isSet backend quoted values s.flagName = true)
      (hperform : perform backend values (resetFlag backend s.flagName) = some next)
      (hrest : Leads backend quoted next updates last) :
      Leads backend quoted values (resetFlag backend s.flagName :: updates) last

namespace Leads

variable {updates updates' : List SessionUpdate} {last : Values}

theorem append (h : Leads backend quoted values updates values')
    (h' : Leads backend quoted values' updates' last) :
    Leads backend quoted values (updates ++ updates') last := by
  induction h with
  | nothing values => exact h'
  | set s hclear hperform _ ih => exact .set s hclear hperform (ih h')
  | clear s hset hperform _ ih => exact .clear s hset hperform (ih h')

theorem performAll_eq (h : Leads backend quoted values updates last) :
    performAll backend values updates = some last := by
  induction h with
  | nothing values => rfl
  | set s hclear hperform _ ih =>
      rw [performAll, List.foldlM_cons, hperform]
      exact ih
  | clear s hset hperform _ ih =>
      rw [performAll, List.foldlM_cons, hperform]
      exact ih

/-- Updates in order can be stopped anywhere. -/
theorem split (h : Leads backend quoted values (updates ++ updates') last) :
    ∃ middle, Leads backend quoted values updates middle ∧
      Leads backend quoted middle updates' last := by
  induction updates generalizing values with
  | nil => exact ⟨values, .nothing values, h⟩
  | cons update updates ih =>
      cases h with
      | set s hclear hperform hrest =>
          obtain ⟨middle, hfront, hback⟩ := ih hrest
          exact ⟨middle, .set s hclear hperform hfront, hback⟩
      | clear s hset hperform hrest =>
          obtain ⟨middle, hfront, hback⟩ := ih hrest
          exact ⟨middle, .clear s hset hperform hfront, hback⟩

theorem isSet_of_setFlag {s : Scope}
    (h : Leads backend quoted values (setFlag backend s.flagName :: updates) last) :
    isSet backend quoted values s.flagName = false ∧
      ∃ next, perform backend values (setFlag backend s.flagName) = some next ∧
        Leads backend quoted next updates last := by
  generalize hu : setFlag backend s.flagName = u at h
  cases h with
  | set t hclear hperform hrest =>
      rw [setFlag_inj hu]
      exact ⟨hclear, _, hperform, hrest⟩
  | clear t hset hperform hrest => exact absurd hu setFlag_ne_resetFlag

theorem isSet_of_resetFlag {s : Scope}
    (h : Leads backend quoted values (resetFlag backend s.flagName :: updates) last) :
    isSet backend quoted values s.flagName = true := by
  generalize hu : resetFlag backend s.flagName = u at h
  cases h with
  | set t hclear hperform hrest => exact absurd hu.symm setFlag_ne_resetFlag
  | clear t hset hperform hrest =>
      rw [resetFlag_inj hu]
      exact hset

/-- Every update sets or clears a flag. -/
theorem exists_scope (h : Leads backend quoted values updates last) :
    ∀ u ∈ updates, ∃ s : Scope,
      u = setFlag backend s.flagName ∨ u = resetFlag backend s.flagName := by
  induction h with
  | nothing values => exact List.forall_mem_nil _
  | set s _ _ _ ih => exact List.forall_mem_cons.mpr ⟨⟨s, .inl rfl⟩, ih⟩
  | clear s _ _ _ ih => exact List.forall_mem_cons.mpr ⟨⟨s, .inr rfl⟩, ih⟩

/-- A flag that is set stays set until it is cleared. -/
theorem isSet_of_not_mem (h : Leads backend quoted values updates last) (t : Scope)
    (hset : isSet backend quoted values t.flagName = true)
    (hkept : resetFlag backend t.flagName ∉ updates) :
    isSet backend quoted last t.flagName = true := by
  induction h with
  | nothing values => exact hset
  | set s hclear hperform _ ih =>
      apply ih
      · rw [isSet_setFlag hperform, hset, Bool.or_true]
      · exact fun hmem => hkept (List.mem_cons_of_mem _ hmem)
  | clear s _ hperform _ ih =>
      -- The flag that is cleared here is another one.
      have hne : t.flagName ≠ s.flagName := by
        intro heq
        rw [heq] at hkept
        exact hkept List.mem_cons_self
      apply ih
      · rw [isSet_resetFlag hperform, hset, bne_iff_ne.mpr hne, Bool.true_and]
      · exact fun hmem => hkept (List.mem_cons_of_mem _ hmem)

/-- Between two updates that set one flag there is one that clears it. -/
theorem mem_between {before between after : List SessionUpdate} {s : Scope}
    (h : Leads backend quoted values
      (before ++ setFlag backend s.flagName
        :: (between ++ setFlag backend s.flagName :: after)) last) :
    resetFlag backend s.flagName ∈ between := by
  obtain ⟨middle, -, hset⟩ := h.split
  obtain ⟨-, next, hperform, hrest⟩ := hset.isSet_of_setFlag
  obtain ⟨second, hbetween, hagain⟩ := hrest.split
  have hnext : isSet backend quoted next s.flagName = true := by
    rw [isSet_setFlag hperform, beq_self_eq_true, Bool.true_or]
  by_contra hkept
  have hsecond := hbetween.isSet_of_not_mem s hnext hkept
  rw [hagain.isSet_of_setFlag.1] at hsecond
  cases hsecond

end Leads

/-! ## Calls -/

/-- What a transaction asks of its skip session. -/
inductive Call
  | skip (scope : Scope)
  | apply
  | reset
  deriving DecidableEq, Repr

namespace Session

/-- The session after a call, and the updates that the call asks for. -/
def call (s : Session) (backend : Backend) : Call → Session × List SessionUpdate
  | .skip scope => (s.skip scope, [])
  | .apply => s.apply backend
  | .reset => s.reset backend

/-- The session after some calls, and the updates that they ask for. -/
def run (s : Session) (backend : Backend) : List Call → Session × List SessionUpdate
  | [] => (s, [])
  | c :: calls =>
      let rest := (s.call backend c).1.run backend calls
      (rest.1, (s.call backend c).2 ++ rest.2)

/-- All updates of a transaction that makes some calls and then ends. -/
def transaction (backend : Backend) (calls : List Call) : List SessionUpdate :=
  let rest := Session.run {} backend calls
  rest.2 ++ rest.1.finish backend

theorem run_append (s : Session) (backend : Backend) (calls calls' : List Call) :
    s.run backend (calls ++ calls') =
      (((s.run backend calls).1.run backend calls').1,
        (s.run backend calls).2 ++ ((s.run backend calls).1.run backend calls').2) := by
  induction calls generalizing s with
  | nil => rfl
  | cons c calls ih => simp only [List.cons_append, run, ih, List.append_assoc]

theorem run_concat (s : Session) (backend : Backend) (calls : List Call) (c : Call) :
    s.run backend (calls ++ [c]) =
      (((s.run backend calls).1.call backend c).1,
        (s.run backend calls).2 ++ ((s.run backend calls).1.call backend c).2) := by
  rw [run_append]
  simp only [run, List.append_nil]

end Session

/-! ## What the session knows -/

/-- The flags that are set are those of the map. -/
structure Holds (backend : Backend) (quoted : Bool) (values : Values) (applied : NameMap Unit) :
    Prop where
  isSet_eq : ∀ s : Scope, isSet backend quoted values s.flagName = applied.contains s.flagName
  named : ∀ name ∈ applied.names, ∃ s : Scope, name = s.flagName

theorem Holds.insert {applied : NameMap Unit} (h : Holds backend quoted values applied) {s : Scope}
    (hperform : perform backend values (setFlag backend s.flagName) = some values') :
    Holds backend quoted values' (applied.insert s.flagName ()) := by
  refine ⟨fun t => ?_, fun name hname => ?_⟩
  · rw [isSet_setFlag hperform, h.isSet_eq, NameMap.contains_insert]
  · rw [NameMap.mem_names, NameMap.contains_insert, Bool.or_eq_true, beq_iff_eq] at hname
    rcases hname with hname | hname
    · exact ⟨s, hname⟩
    · exact h.named name (NameMap.mem_names.mpr hname)

/-- The flags that are set are those that the context takes for set, and it skips them all. -/
structure Agrees (backend : Backend) (quoted : Bool) (values : Values) (s : Session) : Prop where
  holds : Holds backend quoted values s.applied
  skipped : ∀ name, s.applied.contains name = true → s.isFlagSet name = true

theorem leads_applyScopes {applied : NameMap Unit} (h : Holds backend quoted values applied)
    (scopes : List Scope) :
    ∃ last, Leads backend quoted values (Session.applyScopes backend applied scopes).2 last ∧
      Holds backend quoted last (Session.applyScopes backend applied scopes).1 ∧
      ∀ name, (Session.applyScopes backend applied scopes).1.contains name =
        (applied.contains name || scopes.any fun s => s.flagName == name) := by
  induction scopes generalizing applied values with
  | nil => exact ⟨values, .nothing values, h, fun name => by simp [Session.applyScopes]⟩
  | cons s scopes ih =>
      -- A flag that is applied is not set again: it adds no update, and its name is there already.
      by_cases hs : applied.contains s.flagName = true
      · obtain ⟨last, hleads, hholds, hcontains⟩ := ih h
        simp only [Session.applyScopes, hs, if_true]
        refine ⟨last, hleads, hholds, fun name => ?_⟩
        rw [hcontains, List.any_cons]
        by_cases hname : s.flagName = name
        · rw [← hname, hs, Bool.true_or, Bool.true_or]
        · rw [beq_eq_false_iff_ne.mpr hname, Bool.false_or]
      · have hs : applied.contains s.flagName = false := Bool.not_eq_true _ ▸ hs
        obtain ⟨next, hperform⟩ := (exists_perform backend values s).1
        obtain ⟨last, hleads, hholds, hcontains⟩ := ih (h.insert hperform)
        simp only [Session.applyScopes, hs, Bool.false_eq_true, if_false]
        refine ⟨last, .set s ?_ hperform hleads, hholds, fun name => ?_⟩
        · rw [h.isSet_eq, hs]
        · rw [hcontains, NameMap.contains_insert, List.any_cons, Bool.beq_comm (a := name),
            Bool.or_assoc, Bool.or_left_comm]

theorem leads_resetFlags {names : List String} (hnodup : names.Nodup)
    (hnames : ∀ name ∈ names, ∃ s : Scope, name = s.flagName ∧
      isSet backend quoted values s.flagName = true) :
    ∃ last, Leads backend quoted values (names.map (resetFlag backend)) last ∧
      ∀ t : Scope, isSet backend quoted last t.flagName =
        (isSet backend quoted values t.flagName && !names.contains t.flagName) := by
  induction names generalizing values with
  | nil => exact ⟨values, .nothing values, fun t => by simp⟩
  | cons name names ih =>
      obtain ⟨hfresh, hrest⟩ := List.nodup_cons.mp hnodup
      obtain ⟨s, rfl, hset⟩ := hnames name List.mem_cons_self
      obtain ⟨next, hperform⟩ := (exists_perform backend values s).2
      -- Clearing one flag leaves the others set, as their names differ.
      have hnext : ∀ name ∈ names, ∃ t : Scope, name = t.flagName ∧
          isSet backend quoted next t.flagName = true := by
        intro name hmem
        obtain ⟨t, rfl, ht⟩ := hnames name (List.mem_cons_of_mem _ hmem)
        refine ⟨t, rfl, ?_⟩
        rw [isSet_resetFlag hperform, ht, Bool.and_true, bne_iff_ne]
        exact fun heq => hfresh (heq ▸ hmem)
      obtain ⟨last, hleads, hlast⟩ := ih hrest hnext
      refine ⟨last, .clear s hset hperform hleads, fun t => ?_⟩
      rw [hlast, isSet_resetFlag hperform, List.contains_cons, bne, Bool.not_or,
        Bool.and_comm (!t.flagName == s.flagName), Bool.and_assoc]

/-! ## Whole runs -/

namespace Agrees

variable {s : Session}

theorem empty (h : ∀ t : Scope, isSet backend quoted values t.flagName = false) :
    Agrees backend quoted values {} where
  holds := ⟨h, fun _ hname => by cases hname⟩
  skipped := fun _ hname => by cases hname

theorem skip (h : Agrees backend quoted values s) (scope : Scope) :
    Agrees backend quoted values (s.skip scope) where
  holds := h.holds
  skipped := by
    intro name hname
    obtain ⟨other, hmem, hother⟩ := List.any_eq_true.mp (h.skipped name hname)
    exact List.any_eq_true.mpr ⟨other, mem_insertScope.mpr (.inr hmem), hother⟩

/-- Publishing sets the flags of the skipped scopes and no others. -/
theorem apply (h : Agrees backend quoted values s) :
    ∃ last, Leads backend quoted values (s.apply backend).2 last ∧
      Agrees backend quoted last (s.apply backend).1 ∧
      ∀ t : Scope, isSet backend quoted last t.flagName = s.isFlagSet t.flagName := by
  obtain ⟨last, hleads, hholds, hcontains⟩ := leads_applyScopes h.holds s.scopes
  have hpublished : ∀ name, (s.apply backend).1.applied.contains name = s.isFlagSet name := by
    intro name
    rw [Session.apply, hcontains, ← Session.isFlagSet]
    cases hname : s.applied.contains name with
    | false => rw [Bool.false_or]
    | true => rw [h.skipped name hname, Bool.true_or]
  refine ⟨last, hleads, ⟨hholds, fun name hname => ?_⟩, fun t => ?_⟩
  · rw [← hname, hpublished]
    rfl
  · rw [← hpublished]
    exact hholds.isSet_eq t

/-- Taking back clears every flag. -/
theorem reset (h : Agrees backend quoted values s) :
    ∃ last, Leads backend quoted values (s.reset backend).2 last ∧
      ∀ t : Scope, isSet backend quoted last t.flagName = false := by
  have hnames : ∀ name ∈ s.applied.names, ∃ t : Scope, name = t.flagName ∧
      isSet backend quoted values t.flagName = true := by
    intro name hname
    obtain ⟨t, rfl⟩ := h.holds.named name hname
    exact ⟨t, rfl, by rw [h.holds.isSet_eq, NameMap.mem_names.mp hname]⟩
  obtain ⟨last, hleads, hlast⟩ := leads_resetFlags s.applied.nodup_names hnames
  refine ⟨last, hleads, fun t => ?_⟩
  rw [hlast, h.holds.isSet_eq]
  cases hcontains : s.applied.contains t.flagName with
  | false => rw [Bool.false_and]
  | true => rw [List.contains_iff_mem.mpr (NameMap.mem_names.mpr hcontains)]; rfl

theorem call (h : Agrees backend quoted values s) (c : Call) :
    ∃ last, Leads backend quoted values (s.call backend c).2 last ∧
      Agrees backend quoted last (s.call backend c).1 := by
  cases c with
  | skip scope => exact ⟨values, .nothing values, h.skip scope⟩
  | apply =>
      obtain ⟨last, hleads, hagrees, -⟩ := h.apply
      exact ⟨last, hleads, hagrees⟩
  | reset =>
      obtain ⟨last, hleads, hclear⟩ := h.reset
      exact ⟨last, hleads, .empty hclear⟩

theorem run (h : Agrees backend quoted values s) (calls : List Call) :
    ∃ last, Leads backend quoted values (s.run backend calls).2 last ∧
      Agrees backend quoted last (s.run backend calls).1 := by
  induction calls generalizing s values with
  | nil => exact ⟨values, .nothing values, h⟩
  | cons c calls ih =>
      obtain ⟨next, hcall, hnext⟩ := h.call c
      obtain ⟨last, hrest, hlast⟩ := ih hnext
      exact ⟨last, hcall.append hrest, hlast⟩

end Agrees

/-- Behind a call that publishes, the session agrees with the context. -/
theorem leads_publish (hinitial : ∀ s : Scope, isSet backend quoted values s.flagName = false)
    (calls : List Call) :
    ∃ last, Leads backend quoted values (Session.run {} backend (calls ++ [.apply])).2 last ∧
      ∀ s : Scope, isSet backend quoted last s.flagName =
        (Session.run {} backend (calls ++ [.apply])).1.isFlagSet s.flagName := by
  obtain ⟨middle, hcalls, hagrees⟩ := (Agrees.empty hinitial).run calls
  obtain ⟨last, happly, -, hset⟩ := hagrees.apply
  rw [Session.run_concat]
  exact ⟨last, hcalls.append happly, hset⟩

/-- Behind a call that takes back, the session is clear. -/
theorem leads_takeBack (hinitial : ∀ s : Scope, isSet backend quoted values s.flagName = false)
    (calls : List Call) :
    ∃ last, Leads backend quoted values (Session.run {} backend (calls ++ [.reset])).2 last ∧
      (∀ s : Scope, isSet backend quoted last s.flagName = false) ∧
      (Session.run {} backend (calls ++ [.reset])).1 = {} := by
  obtain ⟨middle, hcalls, hagrees⟩ := (Agrees.empty hinitial).run calls
  obtain ⟨last, hreset, hclear⟩ := hagrees.reset
  rw [Session.run_concat]
  exact ⟨last, hcalls.append hreset, hclear, rfl⟩

theorem transaction_eq (backend : Backend) (calls : List Call) :
    Session.transaction backend calls = (Session.run {} backend (calls ++ [.reset])).2 := by
  rw [Session.run_concat]
  rfl

/-- Let some calls be made of one skip session, and their updates be carried out in order on
a database session in which no flag is set.  Behind a call that publishes, the flags that
are set are those of the skipped scopes; behind one that takes back, and at the end of the
transaction, none is set and nothing is skipped.  Over the whole transaction every update
sets or clears a flag, no flag is set a second time before it was cleared, and none is
cleared unless it is set. -/
theorem transaction_leaves_no_flag (backend : Backend) (quoted : Bool) {initial : Values}
    (hinitial : ∀ s : Scope, isSet backend quoted initial s.flagName = false)
    (calls : List Call) :
    (∃ values,
      performAll backend initial (Session.run {} backend (calls ++ [.apply])).2 = some values ∧
      ∀ s : Scope, isSet backend quoted values s.flagName =
        (Session.run {} backend (calls ++ [.apply])).1.isFlagSet s.flagName) ∧
    (∃ values,
      performAll backend initial (Session.run {} backend (calls ++ [.reset])).2 = some values ∧
      (∀ s : Scope, isSet backend quoted values s.flagName = false) ∧
      ∀ entity element?,
        (Session.run {} backend (calls ++ [.reset])).1.isSkipped entity element? = false) ∧
    (∃ values, performAll backend initial (Session.transaction backend calls) = some values ∧
      ∀ s : Scope, isSet backend quoted values s.flagName = false) ∧
    (∀ u ∈ Session.transaction backend calls, ∃ s : Scope,
      u = setFlag backend s.flagName ∨ u = resetFlag backend s.flagName) ∧
    (∀ (s : Scope) before between after,
      Session.transaction backend calls =
        before ++ setFlag backend s.flagName
          :: (between ++ setFlag backend s.flagName :: after) →
      resetFlag backend s.flagName ∈ between) ∧
    ∀ (s : Scope) before after,
      Session.transaction backend calls = before ++ resetFlag backend s.flagName :: after →
      ∃ values, performAll backend initial before = some values ∧
        isSet backend quoted values s.flagName = true := by
  obtain ⟨published, hpublish, hset⟩ := leads_publish hinitial calls
  obtain ⟨last, htransaction, hclear, hempty⟩ := leads_takeBack hinitial calls
  rw [hempty]
  refine ⟨⟨published, hpublish.performAll_eq, hset⟩,
    ⟨last, htransaction.performAll_eq, hclear, fun entity element? => ?_⟩, ?_⟩
  · cases element? <;> rfl
  rw [← transaction_eq] at htransaction
  refine ⟨⟨last, htransaction.performAll_eq, hclear⟩, htransaction.exists_scope, ?_, ?_⟩
  · intro s before between after hsplit
    rw [hsplit] at htransaction
    exact htransaction.mem_between
  · intro s before after hsplit
    rw [hsplit] at htransaction
    -- The updates in front of the clearing one lead to values in which the flag is set.
    obtain ⟨middle, hbefore, hafter⟩ := htransaction.split
    exact ⟨middle, hbefore.performAll_eq, hafter.isSet_of_resetFlag⟩

/-- A transaction that skips orders under two spellings, which share a flag, and one of their
attributes after it has published. -/
def orderCalls : List Call :=
  [.skip (.entity "shop.Orders"), .skip (.entity "shop.orders"), .apply,
    .skip (.element "shop.Orders" "total"), .apply]

theorem orderCalls_leave_no_flag :
    Session.transaction .h2 orderCalls = [
      .sql "SET @changelog_skip_entity_shop_2eorders = 'true'",
      .sql "SET @changelog_skip_element_shop_2eorders__total = 'true'",
      .sql "SET @changelog_skip_element_shop_2eorders__total = NULL",
      .sql "SET @changelog_skip_entity_shop_2eorders = NULL"] ∧
    ∃ values, performAll .h2 (fun _ => none) (Session.transaction .h2 orderCalls) = some values ∧
      ∀ s : Scope, isSet .h2 false values s.flagName = false := by
  have hinitial : ∀ s : Scope, isSet .h2 false (fun _ => none) s.flagName = false := by
    intro s
    rw [isSet_flagName]
    rfl
  exact ⟨by decide +kernel, (transaction_leaves_no_flag .h2 false hinitial orderCalls).2.2.1⟩

end ChangeTracking.Skip
