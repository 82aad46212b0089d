import ChangeTracking.Schema.Model

/-!
# Projections and owners

A service entity projects another entity, possibly through several steps; the entity
at the end of the chain owns the table.  Compositions lead the other way, from a child
to the entities that own it.
-/

namespace ChangeTracking.Schema.Model

/-- Names of the model that a chain has not visited. -/
def unvisited (m : Model) (visited : List String) : List String :=
  m.entities.names.filter fun name => !visited.contains name

theorem mem_names_of_get? {m : Model} {name : String} {e : Entity} (h : m.get? name = some e) :
    name ∈ m.entities.names := by
  obtain ⟨before, after, heq, -⟩ := List.lookup_eq_some_iff.1 h
  simp [NameMap.names, heq]

theorem length_unvisited_lt {m : Model} {visited : List String} {name : String}
    (hname : name ∈ m.entities.names) (hfresh : name ∉ visited) :
    (m.unvisited (visited ++ [name])).length < (m.unvisited visited).length := by
  have hsub : m.unvisited (visited ++ [name]) =
      (m.unvisited visited).filter fun n => n != name := by
    simp only [unvisited, List.filter_filter]
    apply List.filter_congr
    intro n _
    by_cases hn : n ∈ visited <;> by_cases hname : n = name <;>
      simp [hn, hname, List.contains_eq_mem]
  have hmem : name ∈ m.unvisited visited := by
    simp [unvisited, hname, hfresh]
  rw [hsub, List.length_filter_lt_length_iff_exists]
  exact ⟨name, hmem, by simp⟩

/-- Follow the chain of projections from `current`; `visited` holds the names passed
since `start`, in order. -/
def chainEnd (m : Model) (start : String) (visited : List String) (current : Entity) :
    Except Fault Entity :=
  match current.projectionOf with
  | none => .ok current
  | some base =>
      match _ : m.get? base with
      | none => .error (.unknownEntity base)
      | some next =>
          if _ : base ∈ visited then
            .error (.invalidSchema start
              ("projection cycle: " ++ " -> ".intercalate visited ++ " -> " ++ base))
          else
            m.chainEnd start (visited ++ [base]) next
termination_by (m.unvisited visited).length
decreasing_by exact length_unvisited_lt (mem_names_of_get? ‹_›) ‹_›

/-- The entity that owns the table of `entity`. -/
def databaseEntity (m : Model) (entity : Entity) : Except Fault Entity :=
  m.chainEnd entity.name [entity.name] entity

/-- The chain of projections from `entity` ends in the entity called `name`. -/
def endsIn (m : Model) (name : String) (entity : Entity) : Bool :=
  match m.databaseEntity entity with
  | .ok owner => owner.name == name
  | .error _ => false

/-- All projections, direct or not, of the entity called `name`, in the order of their
names. -/
def projectionsOf (m : Model) (name : String) : List Entity :=
  m.all.filter fun entity => entity.isProjection && m.endsIn name entity

/-- The element is a composition whose target ends in the entity called `child`. -/
def composes (m : Model) (child : String) (element : Element) : Bool :=
  match element.association with
  | none => false
  | some association =>
      association.kind == .composition &&
        match m.get? association.target with
        | none => false
        | some target => m.endsIn child target

/-- The entities that own `child` by composition, each with the owning element. -/
def compositionParents (m : Model) (child : String) : List (Entity × Element) :=
  (m.all.filter fun entity => !entity.isProjection).flatMap fun entity =>
    (entity.elements.filter (m.composes child)).map fun element => (entity, element)

/-- The names of the database entities that ask for tracking, themselves or through a
projection. -/
def trackedNames (m : Model) : List String :=
  sortedNames ((m.all.filter Entity.isAnnotated).filterMap fun entity =>
    (m.databaseEntity entity).toOption.map Entity.name)

end ChangeTracking.Schema.Model
