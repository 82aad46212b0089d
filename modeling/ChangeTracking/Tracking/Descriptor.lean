import ChangeTracking.Schema.Route
import ChangeTracking.Tracking.ValueClass

/-!
# Tracking descriptors

The outcome of analysis for one database entity: which attributes are tracked and how
each is compared and labelled, what identifies a record to a reader, which collections
of children are tracked with it, and how a child reaches its owner.
-/

namespace ChangeTracking.Tracking

open Schema (ColumnPair)

/-- How an attribute relates to other entities. -/
inductive Relation
  | none
  | reference
  /-- A composition of one: the target lives and dies with the record. -/
  | ownedSubrecord
  deriving DecidableEq, Repr

/-- A tracked attribute. -/
structure Attribute where
  name : String
  /-- The declared type, recorded verbatim with each change. -/
  type : String
  valueClass : ValueClass
  relation : Relation
  target : Option String
  /-- Local columns of an association that owns its keys. -/
  foreignKeys : List String
  /-- Terms of an association without keys. -/
  onTerms : List ColumnPair
  /-- Paths that resolve, in declared order. -/
  labelPaths : List String
  deriving DecidableEq, Repr

namespace Attribute

def isRelationship (a : Attribute) : Bool := a.relation != .none

/-- The local columns that decide whether the attribute changed. -/
def watched (a : Attribute) : List String :=
  match a.relation with
  | .none => [a.name]
  | _ => if a.foreignKeys.isEmpty then a.onTerms.map (·.source) else a.foreignKeys

end Attribute

/-- One field of an object identifier. -/
structure IdentityField where
  path : String
  /-- The written row has the value; otherwise it is read back from the table. -/
  onRow : Bool
  deriving DecidableEq, Repr

/-- How a composition child reaches the key of its owner. -/
inductive RootLink
  /-- The child's own columns hold the key. -/
  | foreignKeys (joins : List ColumnPair)
  /-- A back reference holds the key, read back by the child's own key. -/
  | backReference (field : String) (joins : List ColumnPair)
  deriving DecidableEq, Repr

/-- The pairs of an owner's column and the child's column that holds it. -/
def RootLink.joins : RootLink → List ColumnPair
  | foreignKeys joins => joins
  | backReference _ joins => joins

/-- The owner of a composition child. -/
structure RootBinding where
  root : String
  link : RootLink
  /-- The owner's own object identifier. -/
  identity : List IdentityField
  deriving DecidableEq, Repr

/-- A tracked composition of many. -/
structure Collection where
  /-- The composition element of the owner. -/
  element : String
  target : String
  targetKeys : List String
  identity : List IdentityField
  link : Option RootLink
  deriving DecidableEq, Repr

/-- The tracking descriptor of one database entity. -/
structure Descriptor where
  entity : String
  /-- The service entity shown with the entity's headers. -/
  service : Option String
  primaryKey : List String
  attributes : List Attribute
  identity : List IdentityField
  collections : List Collection
  binding : Option RootBinding
  deriving DecidableEq, Repr

/-- The tracked attribute of this name. -/
def Descriptor.attribute? (d : Descriptor) (name : String) : Option Attribute :=
  d.attributes.find? (·.name == name)

/-- A problem that analysis noticed and worked around by leaving something out. -/
structure Warning where
  entity : String
  element : Option String
  path : Option String
  reason : String
  deriving DecidableEq, Repr

def Warning.message (w : Warning) : String :=
  w.entity
    ++ (match w.element with | some element => "." ++ element | none => "")
    ++ (match w.path with | some path => " [" ++ path ++ "]" | none => "")
    ++ ": " ++ w.reason

end ChangeTracking.Tracking
