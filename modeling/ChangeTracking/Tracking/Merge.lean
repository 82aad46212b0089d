import ChangeTracking.Schema.Projection

/-!
# Merging directives

A database entity and all its projections may annotate the same element.  Markers give
way to path lists, markers combine by disjunction, and two path lists must be equal.
The sources are visited in a fixed order: the database entity, then its projections by
name.
-/

namespace ChangeTracking.Tracking

open Schema (Directive Element Entity Model)

/-- A directive with the entity that declared it first. -/
structure Declared where
  directive : Directive
  source : String
  deriving DecidableEq, Repr

/-- The merged directives of one database entity. -/
structure Merged where
  entity : Option Declared
  elements : NameMap Declared
  /-- The first projection that asks for tracking. -/
  service : Option String
  deriving DecidableEq, Repr

/-- The place of the entity-level directive in a conflict. -/
def entitySlot : String := "<entity>"

/-- Combine one more directive into a slot of the entity called `entity`. -/
def combine (entity slot : String) (previous : Option Declared) (next : Directive)
    (source : String) : Except Fault Declared :=
  match previous with
  | none => .ok ⟨next, source⟩
  | some declared =>
      match declared.directive, next with
      | .marker a, .marker b => .ok { declared with directive := .marker (a || b) }
      | .marker _, .paths _ => .ok { declared with directive := next }
      | .paths _, .marker _ => .ok declared
      | .paths a, .paths b =>
          if a = b then .ok declared
          else
            .error (.conflictingDirectives entity slot declared.source
              declared.directive.describe source next.describe)

/-- Combine the entity-level directive of a source. -/
def mergeEntityLevel (db source : Entity) (merged : Merged) : Except Fault Merged :=
  match source.directive with
  | none => .ok merged
  | some directive =>
      (combine db.name entitySlot merged.entity directive source.name).map fun declared =>
        { merged with entity := some declared }

/-- Combine the directive of one element of a source; an element that the database
entity lacks has no storage, and its directive no effect. -/
def mergeElement (db : Entity) (source : String) (merged : Merged) (element : Element) :
    Except Fault Merged :=
  match element.directive with
  | none => .ok merged
  | some directive =>
      if (db.element? element.name).isNone then .ok merged
      else
        (combine db.name element.name (merged.elements.get? element.name) directive
          source).map fun declared =>
            { merged with elements := merged.elements.insert element.name declared }

/-- Combine everything that one source declares. -/
def mergeSource (db : Entity) (merged : Merged) (source : Entity) : Except Fault Merged := do
  let merged ← mergeEntityLevel db source merged
  let merged ← source.elements.foldlM (mergeElement db source.name) merged
  return if source.isProjection && merged.service.isNone && source.isAnnotated then
    { merged with service := some source.name }
  else merged

/-- The entities that may annotate `db`, in the order in which they are visited. -/
def directiveSources (m : Model) (db : Entity) : List Entity :=
  db :: m.projectionsOf db.name

/-- The merged directives of `db` and of every projection of it. -/
def mergeDirectives (m : Model) (db : Entity) : Except Fault Merged :=
  (directiveSources m db).foldlM (mergeSource db) ⟨none, NameMap.empty, none⟩

end ChangeTracking.Tracking
