import Mathlib.Data.List.Forall2
import ChangeTracking.Proofs.Tracking.Conflicts

/-!
# Examined elements

The elements of an entity are examined one after another.  One that the merged directives ask for
is tracked by its own value, by the columns of its association, or as a collection of children;
one without a value of its own is left out.  Paths are given up only for associations and for
collections.
-/

namespace ChangeTracking.Tracking

open Schema (Association Directive Element Entity Model)

variable {m : Model} {db : Entity} {merged : Merged} {element : Element}

/-! ## Elements that are asked for -/

/-- The merged directive of the element asks to track it. -/
def Merged.asksFor (merged : Merged) (element : Element) : Bool :=
  (merged.elements.get? element.name).any fun declared => declared.directive.isEnabled

/-- The paths of the merged directive of the element. -/
def Merged.pathsOf (merged : Merged) (element : Element) : List String :=
  annotatedPaths (merged.elements.get? element.name)

/-- The element owns a set of child records. -/
def isCollection (element : Element) : Bool := element.association.any (·.isCompositionOfMany)

/-- An association to many records has no value of its own. -/
theorem isTrackable_of_isCollection (h : isCollection element = true) :
    isTrackable element = false := by
  obtain ⟨association, hassociation, hcomposition⟩ := (Option.any_eq_true _ _).mp h
  rw [Association.isCompositionOfMany, Bool.and_eq_true] at hcomposition
  simp [isTrackable, hassociation, hcomposition.2]

/-! ## Findings -/

/-- What is found at an element, and what is warned about. -/
inductive Examined (m : Model) (db : Entity) (merged : Merged) (element : Element) :
    Finding → List Warning → Prop
  /-- Nothing asks for the element. -/
  | unasked (hasks : merged.asksFor element = false) : Examined m db merged element .nothing []
  /-- There is no value to record. -/
  | refused {warnings : List Warning} (hcollection : isCollection element = false)
      (htrackable : isTrackable element = false) (hpathless : ∀ w ∈ warnings, w.path = none) :
      Examined m db merged element .nothing warnings
  /-- It is tracked by its own value. -/
  | plain (hasks : merged.asksFor element = true) (htrackable : isTrackable element = true)
      (hassociation : element.association = none) :
      Examined m db merged element (.single (plainAttribute element)) []
  /-- It is tracked by the columns of its association. -/
  | related {association : Association} (hasks : merged.asksFor element = true)
      (htrackable : isTrackable element = true)
      (hassociation : element.association = some association) :
      Examined m db merged element
        (.single (relationAttribute m db element association (merged.pathsOf element)))
        (pathWarnings m db (some element.name) (merged.pathsOf element))
  /-- It is tracked as a collection of children. -/
  | collected {association : Association} {target : Entity} {paths : List String}
      {others : List Warning} (hcollection : isCollection element = true)
      (hassociation : element.association = some association)
      (htarget : EndsIn m association.target target)
      (hpaths : childPaths m target (relativePaths element (merged.pathsOf element)) = .ok paths)
      (hpathless : ∀ w ∈ others, w.path = none) :
      Examined m db merged element
        (.collection {
          element := element.name
          target := target.name
          targetKeys := primaryKey target
          identity := identityFields m target paths
          link := rootLink target db })
        (foreignPathWarnings db element (merged.pathsOf element) ++ pathWarnings m target none paths
          ++ others)

section Asked

variable {directive : Directive} {finding : Finding × List Warning}
  (hasks : merged.asksFor element = true) (hpaths : directive.pathList = merged.pathsOf element)
include hasks hpaths

theorem examined_examineAttribute (hcollection : isCollection element = false) :
    Examined m db merged element (examineAttribute m db element directive).1
      (examineAttribute m db element directive).2 := by
  have hexamined := examinedAttribute m db element directive
  generalize examineAttribute m db element directive = found at hexamined ⊢
  obtain ⟨finding, warnings⟩ := found
  rw [hpaths] at hexamined
  cases hexamined with
  | shadow hshadow =>
      have htrackable : isTrackable element = false := by
        simp [isTrackable, Option.isSome_iff_ne_none.mp hshadow]
      exact .refused hcollection htrackable (List.forall_mem_nil _)
  | refused hown htrackable =>
      exact .refused hcollection htrackable (List.forall_mem_singleton.mpr rfl)
  | plain htrackable hassociation => exact .plain hasks htrackable hassociation
  | related htrackable hassociation => exact .related hasks htrackable hassociation

omit hasks in
theorem examined_of_examineCollection {association : Association}
    (hcollection : isCollection element = true)
    (hassociation : element.association = some association)
    (h : examineCollection m db element association directive = .ok finding) :
    Examined m db merged element finding.1 finding.2 := by
  rw [examineCollection, bind_eq_ok] at h
  obtain ⟨next, hnext, h⟩ := h
  obtain ⟨target, htarget, h⟩ := bind_eq_ok.mp h
  obtain ⟨paths, hchild, h⟩ := bind_eq_ok.mp h
  cases h
  rw [hpaths] at hchild ⊢
  dsimp only
  rw [List.append_assoc]
  refine .collected hcollection hassociation ⟨next, Model.entity_eq_ok_iff.mp hnext, htarget⟩
    hchild ?_
  -- The link and the keys of the children are reported without a path.
  refine List.forall_mem_append.mpr ⟨?_, List.forall_mem_map.mpr fun key hkey => rfl⟩
  split
  · exact List.forall_mem_nil _
  · exact List.forall_mem_singleton.mpr rfl

end Asked

/-- What examining an element yields. -/
theorem examined_of_examine {finding : Finding × List Warning}
    (h : examine m db merged element = .ok finding) :
    Examined m db merged element finding.1 finding.2 := by
  unfold examine at h
  split at h
  · rename_i hnone
    cases h
    exact .unasked (by simp [Merged.asksFor, hnone])
  · rename_i declared hdeclared
    have hpaths : declared.directive.pathList = merged.pathsOf element := by
      rw [Merged.pathsOf, hdeclared]
      rfl
    split at h
    · rename_i henabled
      cases h
      exact .unasked (by simpa [Merged.asksFor, hdeclared] using henabled)
    · rename_i henabled
      have hasks : merged.asksFor element = true := by
        simpa [Merged.asksFor, hdeclared] using henabled
      split at h
      · rename_i association hassociation
        split at h
        · rename_i hcomposition
          have hcollection : isCollection element = true := by
            rw [isCollection, hassociation, Option.any_some, hcomposition]
          exact examined_of_examineCollection hpaths hcollection hassociation h
        · rename_i hcomposition
          have hcollection : isCollection element = false := by
            rw [isCollection, hassociation, Option.any_some, Bool.eq_false_iff]
            exact hcomposition
          cases h
          exact examined_examineAttribute hasks hpaths hcollection
      · rename_i hnone
        have hcollection : isCollection element = false := by
          rw [isCollection, hnone, Option.any_none]
        cases h
        exact examined_examineAttribute hasks hpaths hcollection

/-! ## All elements of an entity -/

/-- The elements of an entity are examined in their order. -/
theorem examined_of_mapM {elements : List Element} {findings : List (Finding × List Warning)}
    (h : elements.mapM (examine m db merged) = .ok findings) :
    List.Forall₂ (fun element finding => Examined m db merged element finding.1 finding.2)
      elements findings :=
  (mapM_eq_ok_iff.mp h).imp fun _ _ hexamine => examined_of_examine hexamine

end ChangeTracking.Tracking
