import ChangeTracking.Naming
import ChangeTracking.NameMap
import ChangeTracking.Schema.Entity

/-!
# Checked models

A model is a map of entities that passed the checks: every entity is registered under
its own name, every name and directive path is acceptable, and every projection names
an entity of the model.  The checks are part of the type.
-/

namespace ChangeTracking

namespace Schema

def checkDirective : Option Directive → Except Fault Unit
  | none => .ok ()
  | some directive => directive.pathList.forM (Naming.checkPath "@changelog")

/-- Both columns of an association term are identifiers. -/
def checkOnTerm (term : OnTerm) : Except Fault Unit := do
  Naming.checkIdentifier "ON condition target" term.target
  Naming.checkIdentifier "ON condition source" term.source

def checkAssociation : Option Association → Except Fault Unit
  | none => .ok ()
  | some association => do
      Naming.checkName "association target" association.target
      association.keys.forM (Naming.checkPath "association key")
      association.on.forM checkOnTerm

def checkElement (element : Element) : Except Fault Unit := do
  Naming.checkIdentifier "element" element.name
  checkDirective element.directive
  checkAssociation element.association

/-- A projection's base is an entity of the model. -/
def checkBase (entities : NameMap Entity) : Option String → Except Fault Unit
  | none => .ok ()
  | some base => if entities.contains base then .ok () else .error (.unknownEntity base)

/-- The name of a translation entity is acceptable. -/
def checkTexts : Option String → Except Fault Unit
  | none => .ok ()
  | some texts => Naming.checkName "texts entity" texts

/-- The entity registered under `key` is acceptable. -/
def checkEntity (entities : NameMap Entity) (key : String) (entity : Entity) :
    Except Fault Unit := do
  if entity.name ≠ key then
    .error (.invalidSchema key
      ("entity is registered under a different name '" ++ entity.name ++ "'"))
  Naming.checkName "entity" entity.name
  checkBase entities entity.projectionOf
  checkTexts entity.texts
  entity.elements.forM checkElement
  checkDirective entity.directive

def checkEntities (entities : NameMap Entity) : Except Fault Unit :=
  entities.entries.forM fun entry => checkEntity entities entry.1 entry.2

/-- A checked model. -/
structure Model where
  entities : NameMap Entity
  checked : checkEntities entities = .ok ()

namespace Model

def ofMap (entities : NameMap Entity) : Except Fault Model :=
  match h : checkEntities entities with
  | .ok () => .ok ⟨entities, h⟩
  | .error fault => .error fault

/-- Check entities, each registered under its name. -/
def ofEntities (entities : List Entity) : Except Fault Model :=
  ofMap (NameMap.ofList (entities.map fun entity => (entity.name, entity)))

def get? (m : Model) (name : String) : Option Entity := m.entities.get? name

/-- The entity of this name, which is expected to be there. -/
def entity (m : Model) (name : String) : Except Fault Entity :=
  match m.get? name with
  | some entity => .ok entity
  | none => .error (.unknownEntity name)

/-- All entities in the order of their names. -/
def all (m : Model) : List Entity := m.entities.values

end Model

end Schema

end ChangeTracking
