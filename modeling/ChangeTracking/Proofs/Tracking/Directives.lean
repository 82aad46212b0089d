import ChangeTracking.Proofs.Tracking.Declarations

/-!
# Sources that agree

Several entities may ask for paths at one slot of a database entity.  Merging goes through
exactly where all of them ask for the same ones; otherwise its fault tells a slot at which
two of them differ.
-/

namespace ChangeTracking.Tracking

open Schema (Directive Element Entity Model)

/-! ## Requests -/

/-- Paths that are asked for at slots. -/
abbrev Requests : Type := Slot → List String → Prop

namespace Requests

/-- What one of the two asks for. -/
def or (r₁ r₂ : Requests) : Requests := fun slot paths => r₁ slot paths ∨ r₂ slot paths

/-- What one of several asks for. -/
def anyOf {α : Type} (r : α → Requests) (xs : List α) : Requests :=
  fun slot paths => ∃ x ∈ xs, r x slot paths

/-- The same paths are asked for at every slot. -/
def Agree (r : Requests) : Prop := ∀ slot a b, r slot a → r slot b → a = b

end Requests

/-- The source asks for the paths at an element that the entity stores. -/
def elementRequest (db : Entity) (element : Element) : Requests := fun slot paths =>
  slot = .element element.name ∧ (db.element? element.name).isSome = true ∧
    element.directive = some (.paths paths)

/-- The source asks for the paths at the entity. -/
def entityRequest (source : Entity) : Requests := fun slot paths =>
  slot = .entity ∧ source.directive = some (.paths paths)

/-- What a source asks for at the slots of the entity. -/
def requests (db source : Entity) : Requests :=
  (entityRequest source).or (.anyOf (elementRequest db) source.elements)

/-- What a source asks for are the paths that it declares. -/
theorem requests_iff {db source : Entity} {slot : Slot} {paths : List String} :
    requests db source slot paths ↔ Declares db source slot (.paths paths) := by
  constructor
  · rintro (⟨rfl, h⟩ | ⟨element, hmem, rfl, hstored, h⟩)
    · exact .entity h
    · exact .element hmem hstored h
  · intro h
    cases h with
    | entity h => exact .inl ⟨rfl, h⟩
    | element hmem hstored h => exact .inr ⟨_, hmem, rfl, hstored, h⟩

/-- No two sources of the entity ask for different paths at one slot. -/
def SourcesAgree (m : Model) (db : Entity) : Prop :=
  (Requests.anyOf (requests db) (directiveSources m db)).Agree

/-- Two sources of the entity ask for different paths at the slot of this name. -/
def SourcesDiffer (m : Model) (db : Entity) (label : String) : Prop :=
  ∃ slot, slot.label = label ∧
    ∃ first ∈ directiveSources m db, ∃ second ∈ directiveSources m db, ∃ a b,
      requests db first slot a ∧ requests db second slot b ∧ a ≠ b

theorem SourcesDiffer.not_agree {m : Model} {db : Entity} {label : String}
    (h : SourcesDiffer m db label) : ¬ SourcesAgree m db := by
  obtain ⟨slot, -, first, hfirst, second, hsecond, a, b, ha, hb, hne⟩ := h
  exact fun hagree => hne (hagree slot a b ⟨first, hfirst, ha⟩ ⟨second, hsecond, hb⟩)

/-! ## All sources -/

variable {m : Model} {db : Entity}

/-- What was merged without a fault was asked for by sources that agree. -/
theorem sourcesAgree_of_mergeDirectives {merged : Merged}
    (h : mergeDirectives m db = .ok merged) : SourcesAgree m db := by
  have hjoins : merged.Joins ((directiveSources m db).flatMap (declarations db)) :=
    joins_of_mergeAll h
  rintro slot a b ⟨source₁, hsource₁, ha⟩ ⟨source₂, hsource₂, hb⟩
  rw [requests_iff] at ha hb
  exact (hjoins.isJoin slot).paths_unique
    (declaredAmong_flatMap_iff.mpr ⟨source₁, hsource₁, ha⟩)
    (declaredAmong_flatMap_iff.mpr ⟨source₂, hsource₂, hb⟩)

/-- Merging fails only by a conflict of the entity, at a slot where two sources differ. -/
theorem conflict_of_mergeDirectives {fault : Fault} (h : mergeDirectives m db = .error fault) :
    ∃ label first firstPaths second secondPaths, SourcesDiffer m db label ∧
      fault = .conflictingDirectives db.name label first firstPaths second secondPaths := by
  obtain ⟨slot, first, second, a, b, hdiffers, hfault⟩ := differs_of_mergeAll h
  obtain ⟨source, hsource, ha⟩ := hdiffers.declared
  exact ⟨_, _, _, _, _, ⟨slot, rfl, source, hsource, second, hdiffers.mem, a, b,
    requests_iff.mpr ha, requests_iff.mpr hdiffers.second_declares, hdiffers.ne⟩, hfault⟩

/-- The directives of sources that agree are merged. -/
theorem exists_mergeDirectives (h : SourcesAgree m db) :
    ∃ merged, mergeDirectives m db = .ok merged := by
  cases hmerge : mergeDirectives m db with
  | ok merged => exact ⟨merged, rfl⟩
  | error fault =>
      obtain ⟨_, _, _, _, _, hdiffer, -⟩ := conflict_of_mergeDirectives hmerge
      exact absurd h hdiffer.not_agree

end ChangeTracking.Tracking
