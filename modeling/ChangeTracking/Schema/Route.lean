import ChangeTracking.Schema.Projection

/-!
# Routes

A directive path names a value by walking from an entity along its associations.
A route is such a walk spelled out: the hops, each with the columns that must agree
with the record before it, and the columns read at its end.

Segments that do not lead on may still name a column: `a.b` falls back to the column
`a_b` of the entity reached so far.
-/

namespace ChangeTracking.Schema

/-- A pair of columns that must agree: the next record's and the previous one's. -/
structure ColumnPair where
  target : String
  source : String
  deriving DecidableEq, Repr

/-- One step to the record of `entity` that agrees with the previous record. -/
structure Hop where
  entity : String
  joins : List ColumnPair
  deriving DecidableEq, Repr

/-- A path spelled out. -/
structure Route where
  hops : List Hop
  /-- The columns at the end; several when the path ends on a composite foreign key. -/
  columns : List String
  /-- The entity that has the columns. -/
  holder : String
  type : String
  isLocalized : Bool
  /-- The value is computed, so the written row is no evidence of it. -/
  isComputed : Bool
  deriving DecidableEq, Repr

namespace Route

/-- The path stays on the starting record. -/
def isLocal (r : Route) : Bool := r.hops.isEmpty

/-- The written row has the value. -/
def isOnRow (r : Route) : Bool := r.isLocal && !r.isComputed

/-- The route with one hop in front. -/
def prepend (hop : Hop) (r : Route) : Route := { r with hops := hop :: r.hops }

/-- The route that ends on columns of an element of `entity`. -/
def toElement (entity : Entity) (element : Element) (columns : List String) : Route where
  hops := []
  columns := columns
  holder := entity.name
  type := element.type
  isLocalized := element.isLocalized
  isComputed := element.isComputed

/-- The route that ends on foreign-key columns of `entity` without an element. -/
def toForeignKey (entity : Entity) (type : String) (columns : List String) : Route where
  hops := []
  columns := columns
  holder := entity.name
  type := type
  isLocalized := false
  isComputed := false

end Route

/-- Why a path leads nowhere. -/
inductive DeadEnd
  | notAnElement (segment entity : String)
  | isVirtual (segment : String)
  | notARelationship (segment path : String)
  | unmanaged (segment : String)
  | noJoin (segment : String)
  | missingTarget (target segment : String)
  | brokenProjection (fault : Fault)
  | tooManyHops
  deriving DecidableEq, Repr

namespace DeadEnd

/-- The wording shown in warnings. -/
def message : DeadEnd → String
  | notAnElement segment entity => "'" ++ segment ++ "' is not an element of " ++ entity
  | isVirtual segment => "'" ++ segment ++ "' is virtual and has no stored value"
  | notARelationship segment path =>
      "'" ++ segment ++ "' is not a relationship, cannot follow '" ++ path ++ "'"
  | unmanaged segment => "unmanaged association '" ++ segment ++ "' has no local value"
  | noJoin segment =>
      "association '" ++ segment ++ "' has neither foreign keys nor ON condition"
  | missingTarget target segment =>
      "target '" ++ target ++ "' of '" ++ segment ++ "' is not in the model"
  | brokenProjection fault => fault.message
  | tooManyHops => "more than " ++ toString Naming.maxHops ++ " association hops"

end DeadEnd

/-- The stored element of `entity` whose name joins the segments. -/
def flattened? (entity : Entity) (segments : List String) : Option Route :=
  let column := "_".intercalate segments
  match entity.element? column with
  | none => none
  | some element =>
      if element.isStored then some (Route.toElement entity element [column]) else none

/-- The column pairs by which the association at `segment` reaches its target. -/
def joinsOf (segment : String) (association : Association) : List ColumnPair :=
  if association.isManaged then
    association.keys.map fun key => ⟨flatName key, segment ++ "_" ++ flatName key⟩
  else
    association.on.map fun term => ⟨term.target, term.source⟩

/-- The route at the last segment of a path. -/
def lastStep (current : Entity) (segment : String) : Except DeadEnd Route :=
  match current.element? segment with
  | none => .error (.notAnElement segment current.name)
  | some element =>
      if element.association.isSome then
        if element.foreignKeyColumns.isEmpty then .error (.unmanaged segment)
        else .ok (Route.toForeignKey current "cds.Association" element.foreignKeyColumns)
      else if element.isVirtual then .error (.isVirtual segment)
      else .ok (Route.toElement current element [element.name])

/-- The route to the key `key` of the target of the association at `segment`, which the
foreign-key column already holds. -/
def keyStep (current : Entity) (segment key : String) : Route :=
  let column := segment ++ "_" ++ key
  match current.element? column with
  | some element => Route.toElement current element [column]
  | none => Route.toForeignKey current "cds.String" [column]

namespace Model

/-- The hop over the association at `segment`, with the entity it reaches. -/
def hop (m : Model) (segment : String) (association : Association) :
    Except DeadEnd (Hop × Entity) :=
  if (joinsOf segment association).isEmpty then .error (.noJoin segment)
  else
    match m.get? association.target with
    | none => .error (.missingTarget association.target segment)
    | some target =>
        match m.databaseEntity target with
        | .error fault => .error (.brokenProjection fault)
        | .ok owner => .ok (⟨owner.name, joinsOf segment association⟩, owner)

/-- Walk from `current` along `segment` and the segments after it, taking at most
`budget` hops. -/
def walk (m : Model) (path : String) (budget : Nat) (current : Entity) (segment : String) :
    List String → Except DeadEnd Route
  | [] => lastStep current segment
  | next :: rest =>
      match current.element? segment with
      | none =>
          match flattened? current (segment :: next :: rest) with
          | some route => .ok route
          | none => .error (.notAnElement segment current.name)
      | some element =>
          match element.association with
          | none =>
              match flattened? current (segment :: next :: rest) with
              | some route => .ok route
              | none => .error (.notARelationship segment path)
          | some association =>
              if rest.isEmpty && association.keys.contains next then
                .ok (keyStep current segment next)
              else
                match flattened? current (segment :: next :: rest) with
                | some route => .ok route
                | none =>
                    match m.hop segment association with
                    | .error deadEnd => .error deadEnd
                    | .ok (hop, target) =>
                        match budget with
                        | 0 => .error .tooManyHops
                        | budget + 1 =>
                            (m.walk path budget target next rest).map (Route.prepend hop)

/-- The route of `path` from the entity `start`. -/
def route (m : Model) (start : Entity) (path : String) : Except DeadEnd Route :=
  match Text.segments '.' path with
  | [] => .error (.notAnElement path start.name)
  | segment :: rest => m.walk path Naming.maxHops start segment rest

end Model

end ChangeTracking.Schema
