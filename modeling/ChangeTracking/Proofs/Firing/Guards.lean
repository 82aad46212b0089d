import ChangeTracking.Firing.Evaluation
import ChangeTracking.Proofs.Plan.Subterms

/-!
# What guards test

A guard that asks whether a value is there looks at columns of the row where it can.  The
main statement is that the shortcut and the value never disagree: a key is missing when
one of its parts is, and no text rule turns a value into nothing or nothing into a value.
-/

namespace ChangeTracking.Plan

/-- A key is there exactly when all of its parts are. -/
theorem isSome_joinKey (parts : List (Option String)) :
    (joinKey parts).isSome = parts.all Option.isSome := by
  have hmap : ((parts.mapM id).isSome : Bool) = parts.all Option.isSome := by
    induction parts with
    | nil => rfl
    | cons part parts ih =>
        rw [List.mapM_cons, List.all_cons, ← ih]
        cases part with
        | none => rfl
        | some value => cases parts.mapM id <;> rfl
  rw [joinKey, Option.isSome_map, hmap]

end ChangeTracking.Plan

namespace ChangeTracking.Firing.Scene

open Plan (Expr Guard RowRole)

/-! ## Groups of guards -/

@[simp] theorem holds_any (s : Scene) (guards : List Guard) :
    s.holds (.any guards) = guards.any s.holds := by
  rw [holds, anyHolds_eq_any]

@[simp] theorem holds_all (s : Scene) (guards : List Guard) :
    s.holds (.all guards) = guards.all s.holds := by
  rw [holds, allHold_eq_all]

@[simp] theorem holds_anyOf (s : Scene) (guards : List Guard) :
    s.holds (.anyOf guards) = guards.any s.holds := by
  unfold Guard.anyOf
  split <;> simp

@[simp] theorem holds_allOf (s : Scene) (guards : List Guard) :
    s.holds (.allOf guards) = guards.all s.holds := by
  unfold Guard.allOf
  split <;> simp

/-! ## Presence tested on columns -/

/-- The row in the role has a value in the column. -/
def hasColumn (s : Scene) (c : RowRole × String) : Bool :=
  (s.value (.column c.1 c.2)).isSome

private theorem all_hasColumn_of_allNullColumns (s : Scene) (parts : List Expr)
    (ih : ∀ e ∈ parts, ∀ columns, e.nullColumns = some columns →
      (s.value e).isSome = columns.all s.hasColumn) (columns : List (RowRole × String))
    (h : Expr.allNullColumns parts = some columns) :
    (parts.all fun e => (s.value e).isSome) = columns.all s.hasColumn := by
  induction parts generalizing columns with
  | nil =>
      rw [Expr.allNullColumns, Option.some.injEq] at h
      subst h
      rfl
  | cons e parts ihparts =>
      rw [Expr.allNullColumns, Option.bind_eq_some_iff] at h
      obtain ⟨head, hhead, h⟩ := h
      obtain ⟨rest, hrest, rfl⟩ := Option.map_eq_some_iff.mp h
      have hparts := ihparts (fun e he => ih e (List.mem_cons_of_mem _ he)) rest hrest
      rw [List.all_cons, List.all_append, ih e List.mem_cons_self head hhead, hparts]

/-- Where columns decide whether a value is there, it is there exactly when each of the
columns is. -/
theorem isSome_value_of_nullColumns (s : Scene) (e : Expr) (columns : List (RowRole × String))
    (h : e.nullColumns = some columns) : (s.value e).isSome = columns.all s.hasColumn := by
  -- Only columns, joined keys and what encodes them name such columns.
  induction e using Expr.inductOn generalizing columns with
  | null => cases h
  | text value => cases h
  | column row name =>
      rw [Expr.nullColumns, Option.some.injEq] at h
      subst h
      rw [List.all_cons, List.all_nil, Bool.and_true, hasColumn]
  | ofLocal name => cases h
  | locale => cases h
  | lookup entity name filters ih => cases h
  | keyJoin parts ih =>
      rw [Expr.nullColumns] at h
      rw [value, Plan.isSome_joinKey, values_eq_map, List.all_map,
        ← all_hasColumn_of_allNullColumns s parts ih columns h]
      rfl
  | listJoin parts ih => cases h
  | firstOf parts ih => cases h
  | encoded rule inner ih =>
      rw [Expr.nullColumns] at h
      rw [value, Option.isSome_map, ih columns h]

/-- The presence guard holds exactly when the value is there, on whichever of the two it
is tested. -/
@[simp] theorem holds_present (s : Scene) (e : Expr) :
    s.holds (.present e) = (s.value e).isSome := by
  unfold Guard.present
  split
  · rename_i columns hcolumns
    rw [isSome_value_of_nullColumns s e columns hcolumns, holds_allOf, List.all_map]
    rfl
  · rw [holds]

end ChangeTracking.Firing.Scene
