import ChangeTracking.Settings
import ChangeTracking.Tracking.Descriptor
import ChangeTracking.Tracking.Merge

/-!
# Analysis

From the annotated model to the tracking descriptor of each database entity.  Whatever
cannot be resolved is left out with a warning; only conflicting directives, broken
references of tracked compositions, a missing key, and (on request) a missing owner are
faults, and these stop one entity alone.
-/

namespace ChangeTracking.Tracking

open Schema (Directive AssociationKind ColumnPair Element Entity Model Route)

/-- The element by which a child conventionally refers to its owner. -/
def backReferenceName : String := "up_"

/-- The descriptor of an entity and the problems met on the way. -/
structure Analysis where
  descriptor : Descriptor
  warnings : List Warning
  deriving DecidableEq, Repr

/-! ## Paths -/

/-- The path leads somewhere from `start`. -/
def resolves (m : Model) (start : Entity) (path : String) : Bool :=
  (m.route start path).isOk

/-- A warning for each path that leads nowhere from `start`, on behalf of `element`. -/
def pathWarnings (m : Model) (start : Entity) (element : Option String)
    (paths : List String) : List Warning :=
  paths.filterMap fun path =>
    match m.route start path with
    | .ok _ => none
    | .error deadEnd => some ⟨start.name, element, some path, deadEnd.message⟩

/-- The identifier fields of the paths that resolve. -/
def identityFields (m : Model) (start : Entity) (paths : List String) : List IdentityField :=
  paths.filterMap fun path =>
    match m.route start path with
    | .ok route => some ⟨path, route.isOnRow⟩
    | .error _ => none

/-- The object identifier of an entity with this entity-level directive. -/
def annotatedPaths (declared : Option Declared) : List String :=
  match declared with
  | none => []
  | some declared => declared.directive.pathList

/-! ## Keys -/

/-- The columns of one key element. -/
def keyColumns (key : Element) : List String :=
  if key.association.isSome then key.foreignKeyColumns else [key.name]

/-- The primary key columns in declared order. -/
def primaryKey (db : Entity) : List String :=
  db.keyElements.flatMap keyColumns

/-- A warning for each key element without a column. -/
def primaryKeyWarnings (db : Entity) : List Warning :=
  (db.keyElements.filter fun key => (keyColumns key).isEmpty).map fun key =>
    ⟨db.name, some key.name, none, "relationship key has no foreign key columns; skipped"⟩

/-! ## Owners -/

/-- The element is a reference to the entity `root` that owns foreign-key columns. -/
def refersTo (root : Entity) (element : Element) : Bool :=
  match element.association with
  | none => false
  | some a => a.kind == .reference && !a.many && a.target == root.name && a.isManaged

/-- The pairs of an owner's key column and the local column that holds it. -/
def keyPairs (element : Element) : List ColumnPair :=
  match element.association with
  | none => []
  | some a => List.zipWith (fun key column => ⟨Schema.flatName key, column⟩) a.keys
      element.foreignKeyColumns

/-- The condition of the association at an element. -/
def onPairs (element : Element) : List ColumnPair :=
  match element.association with
  | none => []
  | some a => a.on.map fun term => ⟨term.target, term.source⟩

/-- How the rows of `child` reach `root`: preferably by foreign keys, otherwise by the
conventional back reference. -/
def rootLink (child root : Entity) : Option RootLink :=
  match child.elements.find? (refersTo root) with
  | some element => some (.foreignKeys (keyPairs element))
  | none =>
      match child.element? backReferenceName with
      | none => none
      | some element =>
          if (onPairs element).isEmpty then none
          else some (.backReference element.name (onPairs element))

/-- The binding of a composition child to the first of its owners. -/
def rootBinding (m : Model) (db : Entity) (settings : Settings) :
    Except Fault (Option RootBinding × List Warning) :=
  match m.compositionParents db.name with
  | [] => .ok (none, [])
  | (root, _) :: _ =>
      match rootLink db root with
      | none =>
          if settings.strictRootBinding then .error (.unboundRoot db.name root.name)
          else
            .ok (none, [⟨db.name, none, none,
              "no root binding to " ++ root.name ++ "; root columns omitted"⟩])
      | some link => do
          let merged ← mergeDirectives m root
          let paths := annotatedPaths merged.entity
          return (some ⟨root.name, link, identityFields m root paths⟩,
            pathWarnings m root none paths)

/-! ## Elements -/

/-- What analysis makes of one element. -/
inductive Finding
  | nothing
  | single (a : Attribute)
  | collection (c : Collection)
  deriving DecidableEq, Repr

namespace Finding

def attribute? : Finding → Option Attribute
  | single a => some a
  | _ => none

def collection? : Finding → Option Collection
  | collection c => some c
  | _ => none

end Finding

/-- The relation and the recorded type of an association. -/
def relationOf : AssociationKind → Relation × String
  | .reference => (.reference, "cds.Association")
  | .composition => (.ownedSubrecord, "cds.Composition")

/-- A plain element as a tracked attribute. -/
def plainAttribute (element : Element) : Attribute where
  name := element.name
  type := element.type
  valueClass := .ofDeclared element.type
  relation := .none
  target := none
  foreignKeys := []
  onTerms := []
  labelPaths := []

/-- A to-one association as a tracked attribute. -/
def relationAttribute (m : Model) (db : Entity) (element : Element)
    (association : Schema.Association) (paths : List String) : Attribute :=
  let relation := relationOf association.kind
  { name := element.name
    type := relation.2
    valueClass := .ofDeclared relation.2
    relation := relation.1
    target := some association.target
    foreignKeys := element.foreignKeyColumns
    onTerms := if element.foreignKeyColumns.isEmpty then onPairs element else []
    labelPaths := paths.filter (resolves m db) }

/-- What an annotated element other than a composition of many contributes. -/
def examineAttribute (m : Model) (db : Entity) (element : Element) (directive : Directive) :
    Finding × List Warning :=
  let refused (reason : String) : Finding × List Warning :=
    (.nothing, [⟨db.name, some element.name, none, reason⟩])
  if element.foreignKeyOf.isSome then (.nothing, [])
  else if element.isPersonal then refused "classified as personal data; never tracked"
  else if element.isVirtual then refused "virtual element has no stored value"
  else
    match element.association with
    | none => (.single (plainAttribute element), [])
    | some association =>
        if association.many then refused "to-many reference has no local value"
        else if element.foreignKeyColumns.isEmpty && (onPairs element).isEmpty then
          refused "association has neither foreign keys nor ON condition"
        else
          (.single (relationAttribute m db element association directive.pathList),
            pathWarnings m db (some element.name) directive.pathList)

/-- The paths of a composition directive with the element's own segment removed. -/
def relativePaths (element : Element) (paths : List String) : List String :=
  paths.filterMap (Text.after? (element.name ++ "."))

/-- A warning for each path of a composition directive that begins elsewhere. -/
def foreignPathWarnings (root : Entity) (element : Element) (paths : List String) :
    List Warning :=
  (paths.filter fun path => (Text.after? (element.name ++ ".") path).isNone).map fun path =>
    ⟨root.name, some element.name, some path,
      "composition path must start with the composition element"⟩

/-- The paths that identify a child: those of the composition, or else the child's own. -/
def childPaths (m : Model) (target : Entity) (relative : List String) :
    Except Fault (List String) :=
  if relative.isEmpty then
    (mergeDirectives m target).map fun merged => annotatedPaths merged.entity
  else .ok relative

/-- What an annotated composition of many contributes. -/
def examineCollection (m : Model) (root : Entity) (element : Element)
    (association : Schema.Association) (directive : Directive) :
    Except Fault (Finding × List Warning) := do
  let target ← m.databaseEntity (← m.entity association.target)
  let paths ← childPaths m target (relativePaths element directive.pathList)
  let link := rootLink target root
  let linkWarnings : List Warning :=
    if link.isSome then []
    else [⟨root.name, some element.name, none,
      "no link from " ++ target.name ++ " back to " ++ root.name⟩]
  return (
    .collection {
      element := element.name
      target := target.name
      targetKeys := primaryKey target
      identity := identityFields m target paths
      link := link },
    foreignPathWarnings root element directive.pathList
      ++ pathWarnings m target none paths
      ++ linkWarnings
      ++ primaryKeyWarnings target)

/-- What one element contributes under the merged directives. -/
def examine (m : Model) (db : Entity) (merged : Merged) (element : Element) :
    Except Fault (Finding × List Warning) :=
  match merged.elements.get? element.name with
  | none => .ok (.nothing, [])
  | some declared =>
      if !declared.directive.isEnabled then .ok (.nothing, [])
      else
        match element.association with
        | some association =>
            if association.isCompositionOfMany then
              examineCollection m db element association declared.directive
            else .ok (examineAttribute m db element declared.directive)
        | none => .ok (examineAttribute m db element declared.directive)

/-! ## Entities -/

/-- Analyze the entity called `name`, or the database entity that it projects. -/
def analyze (m : Model) (name : String) (settings : Settings) : Except Fault Analysis := do
  let requested ← m.entity name
  let db ← m.databaseEntity requested
  let merged ← mergeDirectives m db
  let findings ← db.elements.mapM (examine m db merged)
  let attributes := findings.filterMap (·.1.attribute?)
  let collections := findings.filterMap (·.1.collection?)
  let paths := annotatedPaths merged.entity
  let (binding, bindingWarnings) ← rootBinding m db settings
  if (primaryKey db).isEmpty && !(attributes.isEmpty && collections.isEmpty) then
    .error (.invalidSchema db.name "tracked entity has no usable primary key")
  return {
    descriptor := {
      entity := db.name
      service := if requested.isProjection then some requested.name else merged.service
      primaryKey := primaryKey db
      attributes := attributes
      identity := identityFields m db paths
      collections := collections
      binding := binding }
    warnings :=
      primaryKeyWarnings db
        ++ findings.flatMap (·.2)
        ++ pathWarnings m db none paths
        ++ bindingWarnings }

/-- The analyses of all tracked entities, and the faults of those that have none. -/
structure ModelAnalysis where
  analyses : List Analysis
  failures : List (String × Fault)
  deriving DecidableEq, Repr

/-- Analyze the named entities; a fault of the run itself ends it. -/
def analyzeNames (m : Model) (settings : Settings) : List String → Except Fault ModelAnalysis
  | [] => .ok ⟨[], []⟩
  | name :: names =>
      match analyze m name settings with
      | .ok analysis =>
          (analyzeNames m settings names).map fun rest =>
            { rest with analyses := analysis :: rest.analyses }
      | .error fault =>
          if fault.stopsRun then .error fault
          else
            (analyzeNames m settings names).map fun rest =>
              { rest with failures := (name, fault) :: rest.failures }

/-- Analyze every tracked entity of the model. -/
def analyzeModel (m : Model) (settings : Settings) : Except Fault ModelAnalysis :=
  analyzeNames m settings m.trackedNames

end ChangeTracking.Tracking
