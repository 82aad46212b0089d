import ChangeTracking.Text.Chars

/-!
# Entities of the annotated model

The vocabulary of the model that a host framework supplies: entities, their elements,
the associations between them, and the tracking directives on either.
-/

namespace ChangeTracking.Schema

/-- What an element or an entity asks of tracking: a marker, or field paths in order. -/
inductive Directive
  | marker (enabled : Bool)
  | paths (list : List String)
  deriving DecidableEq, Repr

namespace Directive

/-- The directive asks for tracking. -/
def isEnabled : Directive → Bool
  | marker enabled => enabled
  | paths _ => true

/-- The field paths; a marker has none. -/
def pathList : Directive → List String
  | marker _ => []
  | paths list => list

/-- The form shown when two directives conflict. -/
def describe : Directive → String
  | marker true => "true"
  | marker false => "false"
  | paths list => ", ".intercalate list

end Directive

/-- What an association means for the life of its target. -/
inductive AssociationKind
  | reference
  | composition
  deriving DecidableEq, Repr

/-- One term of the condition of an association without keys:
the target's column equals the source's column. -/
structure OnTerm where
  target : String
  source : String
  deriving DecidableEq, Repr

/-- An association to another entity. -/
structure Association where
  kind : AssociationKind
  target : String
  many : Bool := false
  /-- Target keys; the element then owns one foreign-key column for each. -/
  keys : List String := []
  on : List OnTerm := []
  deriving DecidableEq, Repr

namespace Association

/-- The association owns foreign-key columns. -/
def isManaged (a : Association) : Bool := !a.keys.isEmpty

/-- The association owns a set of child records. -/
def isCompositionOfMany (a : Association) : Bool :=
  a.kind == .composition && a.many

end Association

/-- The column part that a possibly dotted key contributes. -/
def flatName (key : String) : String := Text.replaceChar '.' "_" key

/-- An element of an entity. -/
structure Element where
  name : String
  type : String := "cds.String"
  isKey : Bool := false
  isVirtual : Bool := false
  /-- The value comes from the database or the framework, not from the writer. -/
  isComputed : Bool := false
  isLocalized : Bool := false
  isPersonal : Bool := false
  /-- The association whose foreign key this element shadows. -/
  foreignKeyOf : Option String := none
  length : Option UInt32 := none
  association : Option Association := none
  directive : Option Directive := none
  deriving DecidableEq, Repr

namespace Element

/-- The element has a column of its own. -/
def isStored (e : Element) : Bool :=
  !e.isVirtual && e.association.isNone

/-- The local columns of a managed association, in the order of its keys. -/
def foreignKeyColumns (e : Element) : List String :=
  match e.association with
  | none => []
  | some a => a.keys.map fun key => e.name ++ "_" ++ flatName key

/-- The element asks for tracking. -/
def isAnnotated (e : Element) : Bool := e.directive.any Directive.isEnabled

end Element

/-- An entity with its elements in declared order. -/
structure Entity where
  name : String := ""
  elements : List Element := []
  directive : Option Directive := none
  /-- The entity that this service entity projects. -/
  projectionOf : Option String := none
  /-- The entity that holds the translations of localized elements. -/
  texts : Option String := none
  deriving DecidableEq, Repr

namespace Entity

/-- The first element of this name. -/
def element? (e : Entity) (name : String) : Option Element :=
  e.elements.find? (·.name == name)

/-- The key elements in declared order. -/
def keyElements (e : Entity) : List Element := e.elements.filter (·.isKey)

/-- The entity is a projection of another one. -/
def isProjection (e : Entity) : Bool := e.projectionOf.isSome

/-- The entity or one of its elements asks for tracking. -/
def isAnnotated (e : Entity) : Bool :=
  e.directive.any Directive.isEnabled || e.elements.any Element.isAnnotated

end Entity

end ChangeTracking.Schema
