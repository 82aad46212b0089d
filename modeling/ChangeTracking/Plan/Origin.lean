import ChangeTracking.Plan.Encoding
import ChangeTracking.Tracking.Descriptor

/-!
# Origins of values

A path becomes an expression by carrying along where the current record comes from:
from a row at hand, or from the table in which certain columns have certain values.
Each hop turns the one into the other.
-/

namespace ChangeTracking.Plan

open Schema (DeadEnd Entity Hop Model Route)
open Tracking (IdentityField ValueClass)

/-- Where the columns of a record are read from. -/
inductive Origin
  | row (role : RowRole)
  /-- The record of `entity` whose columns have the given values. -/
  | keyed (entity : String) (filters : List (String × Expr))
  deriving Repr

namespace Origin

def read (origin : Origin) (column : String) : Expr :=
  match origin with
  | row role => .column role column
  | keyed entity filters => .lookup entity column filters

/-- The same record read back from its table by its key; a record that comes from a
table is there already. -/
def readBack (origin : Origin) (entity : String) (key : List String) : Origin :=
  match origin with
  | row role => keyed entity (key.map fun column => (column, .column role column))
  | keyed entity filters => keyed entity filters

def hop (origin : Origin) (h : Hop) : Origin :=
  keyed h.entity (h.joins.map fun join => (join.target, origin.read join.source))

/-- The record at the end of the hops. -/
def along (origin : Origin) (hops : List Hop) : Origin := hops.foldl hop origin

end Origin

/-- The translation of a column in the session's locale, read from the entity `texts`
by the key of the record. -/
def translation (m : Model) (entity texts column : String) (origin : Origin) : Expr :=
  let key :=
    match origin with
    | .keyed _ filters => filters
    | .row role =>
        match m.get? entity with
        | none => []
        | some e => e.keyElements.map fun k => (k.name, .column role k.name)
  .lookup texts column (key ++ [("locale", .locale)])

/-- A single column at the end of a route; a localized one prefers its translation. -/
def terminal (m : Model) (route : Route) (origin : Origin) (column : String) : Expr :=
  let value := origin.read column
  match route.isLocalized, (m.get? route.holder).bind (·.texts) with
  | true, some texts => .firstOf [translation m route.holder texts column origin, value]
  | _, _ => value

/-- The recorded form of the value at the end of a route from `origin`. -/
def routeValue (m : Model) (route : Route) (origin : Origin) : Expr :=
  let last := origin.along route.hops
  match route.columns with
  | [column] => encode (.ofDeclared route.type) (terminal m route last column)
  | columns => .keyJoin (columns.map fun column => rawText (last.read column))

theorem routeValue_of_column {route : Route} {column : String} (h : route.columns = [column])
    (m : Model) (origin : Origin) :
    routeValue m route origin =
      encode (.ofDeclared route.type)
        (terminal m route (origin.along route.hops) column) := by
  rw [routeValue, h]

/-- A route that does not end on a single column ends on a key. -/
theorem routeValue_of_key {route : Route} (h : ∀ column, route.columns ≠ [column])
    (m : Model) (origin : Origin) :
    routeValue m route origin =
      .keyJoin (route.columns.map fun column =>
        rawText ((origin.along route.hops).read column)) := by
  unfold routeValue
  split
  · rename_i column hcolumn
    exact absurd hcolumn (h column)
  · rfl

/-- The recorded form of the value that a path names. -/
def pathValue (m : Model) (start : Entity) (path : String) (origin : Origin) :
    Except DeadEnd Expr :=
  (m.route start path).map fun route => routeValue m route origin

/-- The values that several paths name, as one phrase; nothing when none resolves. -/
def phrase (m : Model) (entity : Entity) (paths : List (String × Origin)) : Option Expr :=
  match paths.filterMap fun p => (pathValue m entity p.1 p.2).toOption with
  | [] => none
  | values => some (.encoded .truncated (.listJoin values))

/-- Where an identifier field is read: a value that the written row cannot be trusted
with is read back from the entity's own table. -/
def fieldOrigin (m : Model) (entity : Entity) (key : List String) (origin : Origin)
    (field : IdentityField) : Origin :=
  match m.route entity field.path with
  | .ok route => if !field.onRow && route.isLocal then origin.readBack entity.name key else origin
  | .error _ => origin

/-- The object identifier of a record. -/
def identifier (m : Model) (entity : Entity) (fields : List IdentityField) (key : List String)
    (origin : Origin) : Option Expr :=
  phrase m entity (fields.map fun field => (field.path, fieldOrigin m entity key origin field))

/-- The label of a relationship attribute. -/
def label (m : Model) (entity : Entity) (paths : List String) (origin : Origin) : Option Expr :=
  phrase m entity (paths.map fun path => (path, origin))

end ChangeTracking.Plan
