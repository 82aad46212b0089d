import ChangeTracking.Proofs.Schema.Chains
import ChangeTracking.Proofs.Tracking.Declarations
import Mathlib.Control.Monad.Basic

/-!
# Directives of an entity

A database entity and everything that projects it, directly or not, may declare directives at
its slots.  Merging yields the join of what they declare, in whatever order they are visited,
and fails exactly where two of them declare different paths at one slot.

A slot remembers the source that was the first to declare anything there, a marker included.
So a conflict names the source of the second paths, but in place of that of the first paths it
may name a source that declares a marker only.
-/

namespace ChangeTracking.Tracking

open Schema (Directive Element Entity Model)

variable {m : Model} {db e : Entity} {sources : List Entity}

/-! ## Sources of an entity -/

/-- A source of the entity: a registered entity from which the chain of projections comes to it. -/
def IsSource (m : Model) (db e : Entity) : Prop :=
  m.get? e.name = some e ∧ m.ChainReaches e db

/-- The merged directives of an entity are those of its sources. -/
theorem mem_directiveSources_iff (hdb : m.get? db.name = some db)
    (howner : db.projectionOf = none) : e ∈ directiveSources m db ↔ IsSource m db e := by
  rw [directiveSources, List.mem_cons, Model.projectionsOf, List.mem_filter, Bool.and_eq_true]
  constructor
  · rintro (rfl | ⟨hmem, -, hends⟩)
    · exact ⟨hdb, .refl⟩
    · have hget := Model.get?_of_mem_all hmem
      rw [Model.endsIn] at hends
      split at hends
      · rename_i owner howner'
        -- The chain ends in a registered entity of this name, and there is one only.
        have howner_get := (Model.get?_databaseEntity hget howner').1
        rw [beq_iff_eq.mp hends, hdb] at howner_get
        cases howner_get
        exact ⟨hget, ((Model.databaseEntity_eq_ok_iff hget).mp howner').reaches⟩
      · cases hends
  · rintro ⟨hget, hreaches⟩
    rcases hreaches.cases_head with rfl | ⟨_, ⟨base, hbase, -⟩, -⟩
    · exact .inl rfl
    · have hends : m.databaseEntity e = .ok db :=
        (Model.databaseEntity_eq_ok_iff hget).mpr ⟨hreaches, howner⟩
      exact .inr ⟨Model.mem_all_of_get? hget, by simp [Entity.isProjection, hbase],
        by simp [Model.endsIn, hends]⟩

/-! ## Joins of the declared -/

/-- A source of the entity declares the directive at the slot. -/
def IsDeclared (m : Model) (db : Entity) (slot : Slot) (directive : Directive) : Prop :=
  ∃ source, IsSource m db source ∧ Declares db source slot directive

/-- Different paths are declared at one slot of the entity. -/
def Contested (m : Model) (db : Entity) : Prop :=
  ∃ slot a b, IsDeclared m db slot (.paths a) ∧ IsDeclared m db slot (.paths b) ∧ a ≠ b

/-- The outcome is the join of the directives that are declared, slot by slot, or a fault where
there is no join. -/
structure JoinsDeclared (m : Model) (db : Entity) (outcome : Except Fault Merged) : Prop where
  fails_iff : (∃ fault, outcome = .error fault) ↔ Contested m db
  isJoin : ∀ merged, outcome = .ok merged → ∀ slot,
    IsJoin (IsDeclared m db slot) ((merged.at? slot).map (·.directive))

/-- Merging joins what the sources declare, whichever list of them it goes through. -/
theorem joinsDeclared_of_mem_iff (h : ∀ e, e ∈ sources ↔ IsSource m db e) :
    JoinsDeclared m db (mergeAll db sources) := by
  have hdeclared {slot : Slot} {directive : Directive} :
      DeclaredAmong (sources.flatMap (declarations db)) slot directive ↔
        IsDeclared m db slot directive := by
    simp only [declaredAmong_flatMap_iff, h, IsDeclared]
  have hjoin {merged : Merged} (hmerged : mergeAll db sources = .ok merged) (slot : Slot) :
      IsJoin (IsDeclared m db slot) ((merged.at? slot).map (·.directive)) :=
    ((joins_of_mergeAll hmerged).isJoin slot).congr fun directive => hdeclared
  refine ⟨⟨?_, ?_⟩, fun merged => hjoin⟩
  · rintro ⟨fault, hfault⟩
    obtain ⟨slot, first, second, a, b, hdiffers, -⟩ := differs_of_mergeAll hfault
    obtain ⟨source, hsource, ha⟩ := hdiffers.declared
    exact ⟨slot, a, b, ⟨source, (h source).mp hsource, ha⟩,
      ⟨second, (h second).mp hdiffers.mem, hdiffers.second_declares⟩, hdiffers.ne⟩
  · rintro ⟨slot, a, b, ha, hb, hne⟩
    cases hmerge : mergeAll db sources with
    | error fault => exact ⟨fault, rfl⟩
    | ok merged => exact absurd ((hjoin hmerge slot).paths_unique ha hb) hne

/-- The directives of an entity are the join of what it and its projections declare, slot by slot:
the paths, if any of them declares some, or else an enabled marker before a disabled one.  Merging
fails exactly where different paths are declared at one slot.  Both hold for every order in which
the sources are visited, and so all orders yield the same directives. -/
theorem joinsDeclared_mergeDirectives (hdb : m.get? db.name = some db)
    (howner : db.projectionOf = none) :
    JoinsDeclared m db (mergeDirectives m db) ∧
      ∀ order, (∀ e, e ∈ order ↔ IsSource m db e) →
        JoinsDeclared m db (mergeAll db order) ∧
          ∀ merged merged', mergeDirectives m db = .ok merged → mergeAll db order = .ok merged' →
            ∀ slot, (merged'.at? slot).map (·.directive) = (merged.at? slot).map (·.directive) := by
  have hvisited : JoinsDeclared m db (mergeDirectives m db) :=
    joinsDeclared_of_mem_iff fun e => mem_directiveSources_iff hdb howner
  refine ⟨hvisited, fun order horder => ?_⟩
  have hordered := joinsDeclared_of_mem_iff horder
  exact ⟨hordered, fun merged merged' hmerged hmerged' slot =>
    (hordered.isJoin merged' hmerged' slot).unique (hvisited.isJoin merged hmerged slot)⟩

/-! ### Contracts -/

namespace Contracts

/-- Contracts, whose status is tracked and whose partner is not. -/
def contracts : Entity where
  name := "shop.Contracts"
  elements := [
    { name := "ID", isKey := true },
    { name := "status", directive := some (.marker true) },
    { name := "partner", directive := some (.marker false) }]
  directive := some (.marker true)

/-- The contracts in a service, which shows paths for the status and tracks the partner. -/
def listed : Entity where
  name := "Sales.Contracts"
  elements := [
    { name := "status", directive := some (.paths ["status.name"]) },
    { name := "partner", directive := some (.marker true) },
    { name := "total", directive := some (.paths ["currency.code"]) }]
  projectionOf := some "shop.Contracts"

/-- The same behind one more projection, which names the contracts by their number. -/
def archived : Entity where
  name := "Archive.Contracts"
  elements := [
    { name := "status", directive := some (.marker false) },
    { name := "status", directive := some (.paths ["status.name"]) },
    { name := "partner", directive := some (.marker false) }]
  directive := some (.paths ["contractNo"])
  projectionOf := some "Sales.Contracts"

def model : Model where
  entities := NameMap.ofList
    ([contracts, listed, archived].map fun entity => (entity.name, entity))
  checked := by decide

theorem isSource_iff : ∀ e, e ∈ [archived, listed, contracts] ↔ IsSource model contracts e := by
  intro e
  have hvisited : directiveSources model contracts = [contracts, archived, listed] := by
    decide +kernel
  rw [← mem_directiveSources_iff (by decide +kernel) rfl, hvisited]
  exact (List.reverse_perm [contracts, listed, archived]).mem_iff.trans
    (List.Perm.cons contracts (.swap archived listed [])).mem_iff

/-- Visited backwards, the projections of the contracts yield the same directives. -/
theorem joinsDeclared_contracts :
    model.get? contracts.name = some contracts ∧ contracts.projectionOf = none ∧
      (∀ e, e ∈ [archived, listed, contracts] ↔ IsSource model contracts e) ∧
      JoinsDeclared model contracts (mergeDirectives model contracts) ∧
      JoinsDeclared model contracts (mergeAll contracts [archived, listed, contracts]) ∧
      ∃ merged merged', mergeDirectives model contracts = .ok merged ∧
        mergeAll contracts [archived, listed, contracts] = .ok merged' ∧
        ∀ slot, (merged'.at? slot).map (·.directive) = (merged.at? slot).map (·.directive) := by
  have hdb : model.get? contracts.name = some contracts := by decide +kernel
  obtain ⟨hvisited, horders⟩ := joinsDeclared_mergeDirectives hdb rfl
  obtain ⟨hordered, hsame⟩ := horders _ isSource_iff
  have hmerged : mergeDirectives model contracts = .ok {
      entity := some ⟨.paths ["contractNo"], "shop.Contracts"⟩
      elements := NameMap.ofList [("partner", ⟨.marker true, "shop.Contracts"⟩),
        ("status", ⟨.paths ["status.name"], "shop.Contracts"⟩)]
      service := some "Archive.Contracts" } := by
    decide +kernel
  have hmerged' : mergeAll contracts [archived, listed, contracts] = .ok {
      entity := some ⟨.paths ["contractNo"], "Archive.Contracts"⟩
      elements := NameMap.ofList [("partner", ⟨.marker true, "Archive.Contracts"⟩),
        ("status", ⟨.paths ["status.name"], "Archive.Contracts"⟩)]
      service := some "Archive.Contracts" } := by
    decide +kernel
  exact ⟨hdb, rfl, isSource_iff, hvisited, hordered, _, _, hmerged, hmerged',
    hsame _ _ hmerged hmerged'⟩

end Contracts

/-! ## Reports -/

/-- Merging fails only by a conflict of paths at a slot of the entity.  The second source that the
fault names declares the second paths, and some source declares the first ones, which are others.
The first source that the fault names is the first one visited that declares anything at the slot:
the first paths, or else a marker. -/
theorem reported_of_mergeDirectives (hdb : m.get? db.name = some db)
    (howner : db.projectionOf = none) {fault : Fault}
    (h : mergeDirectives m db = .error fault) :
    ∃ slot first second a b,
      fault = .conflictingDirectives db.name slot.label first.name (Directive.paths a).describe
        second.name (Directive.paths b).describe ∧
      IsSource m db first ∧ IsSource m db second ∧ a ≠ b ∧
      Declares db second slot (.paths b) ∧ IsDeclared m db slot (.paths a) ∧
      IsFirst db (directiveSources m db) slot first ∧
      (Declares db first slot (.paths a) ∨
        ∃ enabled, Declares db first slot (.marker enabled)) := by
  have hsource {e : Entity} (he : e ∈ directiveSources m db) : IsSource m db e :=
    (mem_directiveSources_iff hdb howner).mp he
  obtain ⟨slot, first, second, a, b, hdiffers, hfault⟩ := differs_of_mergeAll h
  obtain ⟨source, hmem, ha⟩ := hdiffers.declared
  exact ⟨slot, first, second, a, b, hfault, hsource hdiffers.isFirst.mem, hsource hdiffers.mem,
    hdiffers.ne, hdiffers.second_declares, ⟨source, hsource hmem, ha⟩, hdiffers.isFirst,
    hdiffers.first_declares⟩

/-! ### Offers -/

namespace Offers

/-- Offers, whose status is tracked. -/
def offers : Entity where
  name := "shop.Offers"
  elements := [{ name := "ID", isKey := true }, { name := "status", directive := some (.marker true) }]

/-- The offers in a service, which shows the path for the status. -/
def shownBy (service path : String) : Entity where
  name := service
  elements := [{ name := "status", directive := some (.paths [path]) }]
  projectionOf := some "shop.Offers"

/-- Two services show the name of the status and its code. -/
def model : Model where
  entities := NameMap.ofList
    ([offers, shownBy "Sales.Offers" "status.name", shownBy "Tax.Offers" "status.code"].map
      fun entity => (entity.name, entity))
  checked := by decide

/-- The two services are in conflict, but the fault names the offers instead of the first one. -/
def conflict : Fault :=
  .conflictingDirectives "shop.Offers" "status" "shop.Offers" "status.name" "Tax.Offers"
    "status.code"

theorem mergeDirectives_eq_conflict : mergeDirectives model offers = .error conflict := by
  decide +kernel

theorem reported_conflict : model.get? offers.name = some offers ∧ offers.projectionOf = none ∧
    mergeDirectives model offers = .error conflict ∧
    ∃ slot first second a b,
      conflict = .conflictingDirectives offers.name slot.label first.name
        (Directive.paths a).describe second.name (Directive.paths b).describe ∧
      IsSource model offers first ∧ IsSource model offers second ∧ a ≠ b ∧
      Declares offers second slot (.paths b) ∧ IsDeclared model offers slot (.paths a) ∧
      IsFirst offers (directiveSources model offers) slot first ∧
      (Declares offers first slot (.paths a) ∨
        ∃ enabled, Declares offers first slot (.marker enabled)) := by
  have hdb : model.get? offers.name = some offers := by decide +kernel
  exact ⟨hdb, rfl, mergeDirectives_eq_conflict,
    reported_of_mergeDirectives hdb rfl mergeDirectives_eq_conflict⟩

/-- The offers declare no paths at all, although the fault says that they declare the name of the
status. -/
theorem offers_declare_no_paths :
    mergeDirectives model offers = .error (.conflictingDirectives "shop.Offers" "status"
      "shop.Offers" "status.name" "Tax.Offers" "status.code") ∧
    ∀ source, model.get? "shop.Offers" = some source → ∀ slot list,
      ¬ Declares offers source slot (.paths list) := by
  refine ⟨mergeDirectives_eq_conflict, fun source hsource slot list hdeclares => ?_⟩
  have hoffers : model.get? "shop.Offers" = some offers := by decide +kernel
  cases hsource.symm.trans hoffers
  cases hdeclares with
  | entity h => cases h
  | element hmem hstored h =>
      simp only [offers, List.mem_cons, List.not_mem_nil, or_false] at hmem
      rcases hmem with rfl | rfl
      · cases h
      · cases h

end Offers

end ChangeTracking.Tracking
