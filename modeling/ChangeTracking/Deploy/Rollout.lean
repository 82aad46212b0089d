import ChangeTracking.Deploy.Catalog
import ChangeTracking.NameMap

/-!
# Rollouts

A rollout replaces the installed triggers: first every generated trigger in the catalog
is dropped, then the new ones are created.  The first refused statement ends it.
-/

namespace ChangeTracking.Deploy

open Script (Artifact Generator)

/-- A statement with the artifact or the entity that it is for. -/
structure Statement where
  artifact : String
  sql : String
  deriving DecidableEq, Repr

/-- What a database connection makes of a statement: its next state, and the reason when
it refuses. -/
abbrev Connection (σ : Type) := σ → String → σ × Option String

/-- The replacement of the installed triggers. -/
structure Rollout where
  backend : Backend
  drops : List Statement
  artifacts : List Artifact
  deriving DecidableEq, Repr

namespace Rollout

/-- The entities that artifacts or installed triggers belong to, in the order of their
names. -/
def entities (artifacts : List Artifact) (existing : NameMap (List String)) : List String :=
  sortedNames (artifacts.filterMap (·.entity) ++ existing.names)

def dropsOf (g : Generator) (existing : NameMap (List String)) (entity : String) :
    List Statement :=
  (dropStatements g entity ((existing.get? entity).getD [])).map fun sql => ⟨entity, sql⟩

/-- Replace the triggers in `existing`, listed by entity, by the artifacts. -/
def plan (g : Generator) (artifacts : List Artifact) (existing : NameMap (List String)) :
    Rollout where
  backend := g.backend
  drops := (entities artifacts existing).flatMap (dropsOf g existing)
  artifacts := artifacts

def statements (r : Rollout) : List Statement :=
  r.drops
    ++ (r.artifacts.filter (·.kind.isExecutable)).map fun a => ⟨a.name, a.source⟩

/-- The names and texts of the artifacts that are deployed as files. -/
def files (r : Rollout) : List (String × String) :=
  (r.artifacts.filter fun a => !a.kind.isExecutable).map fun a => (a.fileName, a.source)

/-- Send statements up to the first refused one, counting those that were accepted. -/
def send {σ : Type} (connection : Connection σ) (accepted : Nat) (state : σ) :
    List Statement → σ × Except Fault Nat
  | [] => (state, .ok accepted)
  | statement :: rest =>
      match connection state statement.sql with
      | (state, none) => send connection (accepted + 1) state rest
      | (state, some reason) => (state, .error (.deploymentFailed statement.artifact reason))

/-- Carry out the rollout over a connection; the answer counts the statements. -/
def execute {σ : Type} (r : Rollout) (connection : Connection σ) (state : σ) :
    σ × Except Fault Nat :=
  send connection 0 state r.statements

end Rollout

end ChangeTracking.Deploy
