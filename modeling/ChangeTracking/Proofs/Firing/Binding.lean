import ChangeTracking.Firing.Evaluation
import ChangeTracking.Proofs.Plan.RowSafety

/-!
# Binding and evaluation

Binding an expression to a row and evaluating it unbound where that row is the subject
are two ways to the same value.  An expression that reads the subject alone therefore has
a value over a single row, whatever else the trigger sees.
-/

namespace ChangeTracking.Firing

open Plan (Expr ReadsOnly RowRole)

/-- The role that a role turns into once the row to be bound is `row`. -/
def boundRole (row : RowRole) : RowRole → RowRole
  | .subject => row
  | role => role

/-- The expression itself reads the same row in the one scene, once it is bound, as it
reads unbound in the other. -/
def ReadsAlike (s t : Scene) (row : RowRole) : Expr → Prop
  | .column role _ => s.row (boundRole row role) = t.row role
  | _ => True

namespace Scene

variable {s t : Scene} {row : RowRole}

/-- An expression bound to a row has the value that it has unbound where that row is the
subject. -/
theorem value_bind (e : Expr) (hstore : s.store = t.store)
    (hrows : e.Everywhere (ReadsAlike s t row)) : s.value (e.bind row) = t.value e := by
  induction e using Expr.inductOn with
  | null => rfl
  | text value => rfl
  | column role name =>
      have hrole : s.row (boundRole row role) = t.row role := by simpa [ReadsAlike] using hrows
      -- Only the subject is replaced; the other roles are the same on both sides.
      cases role <;> simp only [Expr.bind, value, ← hrole, boundRole]
  | ofLocal name => rfl
  | locale => simp only [Expr.bind, value, hstore]
  | lookup entity name filters ih =>
      rw [Expr.everywhere_lookup] at hrows
      have hfilters : s.filterValues (filters.map fun f => (f.1, f.2.bind row)) =
          t.filterValues (filters.map fun f => (f.1, f.2)) :=
        filterValues_congr fun f hf => ih f hf (hrows.2 f hf)
      rw [Expr.bind, value, value, Expr.bindFilters_eq_map, hfilters, List.map_id', hstore]
  | keyJoin parts ih =>
      rw [Expr.everywhere_keyJoin] at hrows
      have hparts : s.values (parts.map (Expr.bind row)) = t.values (parts.map id) :=
        values_congr fun e he => ih e he (hrows.2 e he)
      rw [Expr.bind, value, value, Expr.bindAll_eq_map, hparts, List.map_id]
  | listJoin parts ih =>
      rw [Expr.everywhere_listJoin] at hrows
      have hparts : s.values (parts.map (Expr.bind row)) = t.values (parts.map id) :=
        values_congr fun e he => ih e he (hrows.2 e he)
      rw [Expr.bind, value, value, Expr.bindAll_eq_map, hparts, List.map_id]
  | firstOf parts ih =>
      rw [Expr.everywhere_firstOf] at hrows
      have hparts : s.firstValue (parts.map (Expr.bind row)) = t.firstValue (parts.map id) :=
        firstValue_congr fun e he => ih e he (hrows.2 e he)
      rw [Expr.bind, value, value, Expr.bindAll_eq_map, hparts, List.map_id]
  | encoded rule inner ih =>
      rw [Expr.everywhere_encoded] at hrows
      rw [Expr.bind, value, value, ih hrows.2]

end Scene

/-! ## Values over a single row -/

/-- What is seen where a row is the subject and nothing else is at hand. -/
def Store.sceneOf (store : Store) (row : Option Row) : Scene where
  old := none
  new := none
  subject := row
  store := store
  skips := {}

/-- What is seen where a row is written anew. -/
def Store.sceneOfNew (store : Store) (row : Row) : Scene where
  old := none
  new := some row
  subject := none
  store := store
  skips := {}

/-- The value of an expression over a single row. -/
def Store.valueOver (store : Store) (row : Option Row) (e : Expr) : Option String :=
  (store.sceneOf row).value e

/-- An expression that reads the subject alone, bound to a row, has its value over that
row. -/
theorem Scene.value_bind_of_onRow (s : Scene) (row : RowRole) {e : Expr}
    (he : e.OnRow .subject) : s.value (e.bind row) = s.store.valueOver (s.row row) e := by
  refine Scene.value_bind e rfl (he.mono ?_)
  intro u hu
  cases u with
  | column role name =>
      have hrole : role = .subject := hu
      subst hrole
      rfl
  | _ => trivial

end ChangeTracking.Firing
