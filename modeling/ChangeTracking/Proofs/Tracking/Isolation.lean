import ChangeTracking.Proofs.Tracking.Analyses

/-!
# Faults stay with their entity

No step of the analysis of one entity meets a fault of the run itself.  So the analysis of
a model always ends, and accounts for each tracked name once: by the analysis of the entity,
or by the fault that stopped it.
-/

namespace ChangeTracking

variable {α β : Type}

/-- If the step fails, other entities are left alone. -/
def Isolated (x : Except Fault α) : Prop := ∀ fault, x = .error fault → fault.stopsRun = false

namespace Isolated

theorem ok (a : α) : Isolated (.ok a) := by
  rintro _ ⟨⟩

theorem error {fault : Fault} (h : fault.stopsRun = false) :
    Isolated (.error fault : Except Fault α) := by
  rintro _ ⟨⟩
  exact h

theorem bind {x : Except Fault α} {f : α → Except Fault β} (hx : Isolated x)
    (hf : ∀ a, Isolated (f a)) : Isolated (x >>= f) := by
  cases x with
  | error fault => exact error (hx fault rfl)
  | ok a => exact hf a

theorem map {x : Except Fault α} (hx : Isolated x) (f : α → β) : Isolated (x.map f) := by
  cases x with
  | error fault => exact error (hx fault rfl)
  | ok a => exact ok (f a)

theorem mapM {f : α → Except Fault β} (hf : ∀ a, Isolated (f a)) (xs : List α) :
    Isolated (xs.mapM f) := by
  induction xs with
  | nil => exact ok []
  | cons x xs ih =>
      rw [List.mapM_cons]
      exact (hf x).bind fun y => ih.bind fun ys => ok (y :: ys)

theorem foldlM {f : β → α → Except Fault β} (hf : ∀ b a, Isolated (f b a)) (start : β)
    (xs : List α) : Isolated (xs.foldlM f start) := by
  induction xs generalizing start with
  | nil => exact ok start
  | cons x xs ih =>
      rw [List.foldlM_cons]
      exact (hf start x).bind fun next => ih next

end Isolated

/-! ## Look-ups and chains -/

namespace Schema.Model

theorem isolated_entity (m : Model) (name : String) : Isolated (m.entity name) := by
  unfold entity
  split
  · exact .ok _
  · exact .error rfl

theorem isolated_chainEnd (m : Model) (start : String) (visited : List String) (current : Entity) :
    Isolated (m.chainEnd start visited current) := by
  fun_induction chainEnd m start visited current with
  | case1 => exact .ok _
  | case2 => exact .error rfl
  | case3 => exact .error rfl
  | case4 _ _ _ _ _ _ _ ih => exact ih

end Schema.Model

namespace Tracking

open Schema (Association Directive Element Entity Model)

variable {m : Model} {settings : Settings}

/-! ## Merging -/

theorem isolated_combine (entity slot : String) (previous : Option Declared) (next : Directive)
    (source : String) : Isolated (combine entity slot previous next source) := by
  unfold combine
  repeat' split
  · exact .ok _
  · exact .ok _
  · exact .ok _
  · exact .ok _
  · exact .ok _
  · exact .error rfl

theorem isolated_mergeEntityLevel (db source : Entity) (merged : Merged) :
    Isolated (mergeEntityLevel db source merged) := by
  unfold mergeEntityLevel
  split
  · exact .ok _
  · exact (isolated_combine _ _ _ _ _).map _

theorem isolated_mergeElement (db : Entity) (source : String) (merged : Merged)
    (element : Element) : Isolated (mergeElement db source merged element) := by
  unfold mergeElement
  split
  · exact .ok _
  · split
    · exact .ok _
    · exact (isolated_combine _ _ _ _ _).map _

theorem isolated_mergeSource (db : Entity) (merged : Merged) (source : Entity) :
    Isolated (mergeSource db merged source) :=
  (isolated_mergeEntityLevel db source merged).bind fun level =>
    (Isolated.foldlM (isolated_mergeElement db source.name) level source.elements).bind fun _ =>
      .ok _

theorem isolated_mergeDirectives (m : Model) (db : Entity) : Isolated (mergeDirectives m db) :=
  Isolated.foldlM (isolated_mergeSource db) _ (directiveSources m db)

/-! ## Analysis -/

theorem isolated_childPaths (m : Model) (target : Entity) (relative : List String) :
    Isolated (childPaths m target relative) := by
  unfold childPaths
  split
  · exact (isolated_mergeDirectives m target).map _
  · exact .ok _

theorem isolated_examineCollection (m : Model) (root : Entity) (element : Element)
    (association : Association) (directive : Directive) :
    Isolated (examineCollection m root element association directive) :=
  (m.isolated_entity association.target).bind fun next =>
    (m.isolated_chainEnd next.name [next.name] next).bind fun target =>
      (isolated_childPaths m target _).bind fun _ => .ok _

theorem isolated_examine (m : Model) (db : Entity) (merged : Merged) (element : Element) :
    Isolated (examine m db merged element) := by
  unfold examine
  split
  · exact .ok _
  · split
    · exact .ok _
    · split
      · split
        · exact isolated_examineCollection m db element _ _
        · exact .ok _
      · exact .ok _

theorem isolated_rootBinding (m : Model) (db : Entity) (settings : Settings) :
    Isolated (rootBinding m db settings) := by
  unfold rootBinding
  split
  · exact .ok _
  · rename_i root _ _ _
    split
    · split
      · exact .error rfl
      · exact .ok _
    · exact (isolated_mergeDirectives m root).bind fun _ => .ok _

/-- The analysis of an entity leaves other entities alone. -/
theorem isolated_analyze (m : Model) (name : String) (settings : Settings) :
    Isolated (analyze m name settings) := by
  refine (m.isolated_entity name).bind fun requested => ?_
  refine (m.isolated_chainEnd requested.name [requested.name] requested).bind fun db => ?_
  refine (isolated_mergeDirectives m db).bind fun merged => ?_
  refine (Isolated.mapM (isolated_examine m db merged) db.elements).bind fun findings => ?_
  refine (isolated_rootBinding m db settings).bind fun found => ?_
  obtain ⟨binding, warnings⟩ := found
  dsimp only
  split
  · exact .error rfl
  · exact .ok _

/-! ## Whole models -/

/-- The fault that stops the analysis of a name. -/
def failureOf? (m : Model) (settings : Settings) (name : String) : Option (String × Fault) :=
  match analyze m name settings with
  | .ok _ => none
  | .error fault => some (name, fault)

/-- The result accounts for the names: it has the analyses and the faults that the names have
each for itself, in their order, and each name stands for one of them. -/
structure ModelAnalysis.Accounts (m : Model) (settings : Settings) (names : List String)
    (result : ModelAnalysis) : Prop where
  analyses_eq : result.analyses = names.filterMap fun name => (analyze m name settings).toOption
  failures_eq : result.failures = names.filterMap (failureOf? m settings)
  once : (result.descriptors.map (·.entity) ++ result.failures.map Prod.fst).Perm names

/-- The analyses of several names always end. -/
theorem exists_analyzeNames {names : List String} (hnames : ∀ name ∈ names, OwnsTable m name) :
    ∃ result, analyzeNames m settings names = .ok result ∧
      result.Accounts m settings names := by
  induction names with
  | nil => exact ⟨⟨[], []⟩, rfl, rfl, rfl, List.Perm.refl _⟩
  | cons name names ih =>
      obtain ⟨hname, hnames⟩ := List.forall_mem_cons.mp hnames
      obtain ⟨rest, hrest, hanalyses, hfailures, honce⟩ := ih hnames
      -- The name is listed once, among the analyses or among the failures; the rest is as it was.
      cases hanalyze : analyze m name settings with
      | ok a =>
          refine ⟨{ rest with analyses := a :: rest.analyses }, ?_, ?_, ?_, ?_⟩
          · rw [analyzeNames, hanalyze, hrest]
            rfl
          · rw [List.filterMap_cons, hanalyze, hanalyses]
            rfl
          · rw [List.filterMap_cons, failureOf?, hanalyze, ← hfailures]
          · have hentity := entity_of_analyze hname hanalyze
            rw [← hentity]
            exact honce.cons _
      | error fault =>
          refine ⟨{ rest with failures := (name, fault) :: rest.failures }, ?_, ?_, ?_, ?_⟩
          · rw [analyzeNames, hanalyze, hrest]
            dsimp only
            rw [isolated_analyze m name settings fault hanalyze]
            rfl
          · rw [List.filterMap_cons, hanalyze, hanalyses]
            rfl
          · rw [List.filterMap_cons, failureOf?, hanalyze, ← hfailures]
          · exact List.perm_middle.trans (honce.cons name)

/-- The analysis of a model always ends, and accounts for its tracked names. -/
theorem exists_analyzeModel (m : Model) (settings : Settings) :
    ∃ result, analyzeModel m settings = .ok result ∧
      result.Accounts m settings m.trackedNames :=
  exists_analyzeNames fun _ hname => ownsTable_of_mem_trackedNames hname

end Tracking

end ChangeTracking
