import ChangeTracking.Firing.Evaluation
import ChangeTracking.Plan.Origin
import ChangeTracking.Proofs.Schema.Routes
import Mathlib.Data.List.Basic

/-!
# Origins that are alike

Two origins are alike when the same record is read from the one as from the other, and the
same translations of it.  Hops keep this, since the next record depends on what is read
from the one before and on nothing else; so the same paths name the same values from both,
and identify the same.
-/

namespace ChangeTracking.Firing

open Plan (Expr Origin fieldOrigin identifier pathValue phrase routeValue terminal)
open Schema (ColumnPair Entity Hop Model Route)
open Tracking (IdentityField)

/-! ## Translations -/

/-- The translation of a column under the values of a key, in the locale of the session. -/
def Store.translationOf (store : Store) (texts column : String) (key : List (String × String)) :
    Option String :=
  store.locale.bind fun locale =>
    (store.find? texts (key ++ [("locale", locale)])).bind (·.get? column)

namespace Scene

variable (s : Scene)

theorem filterValues_append (filters more : List (String × Expr)) :
    s.filterValues (filters ++ more) =
      (s.filterValues filters).bind fun values => (s.filterValues more).map (values ++ ·) := by
  induction filters with
  | nil => simp [filterValues]
  | cons filter filters ih =>
      obtain ⟨column, e⟩ := filter
      rw [List.cons_append, filterValues, filterValues, ih]
      cases s.value e <;> cases s.filterValues filters <;> cases s.filterValues more <;> rfl

/-- A translation is looked for by the values of the filters and the locale. -/
theorem value_translationLookup (texts column : String) (filters : List (String × Expr)) :
    s.value (.lookup texts column (filters ++ [("locale", .locale)])) =
      (s.filterValues filters).bind (s.store.translationOf texts column) := by
  rw [value, filterValues_append]
  cases s.filterValues filters with
  | none => rfl
  | some values =>
      rw [Option.bind_some, Option.bind_some, Store.translationOf, filterValues, value]
      cases s.store.locale <;> rfl

end Scene

/-! ## Along a route -/

/-- The same record is read from the two origins, and the same translations of it as a
record of `holder`. -/
structure Alike (m : Model) (s t : Scene) (holder : String) (o o' : Origin) : Prop where
  read (column : String) : s.value (o.read column) = t.value (o'.read column)
  translation (texts column : String) :
    s.value (Plan.translation m holder texts column o) =
      t.value (Plan.translation m holder texts column o')

section Alike

variable {m : Model} {s t : Scene} {holder : String} {o o' : Origin}

/-- Behind a hop the origins are alike for every holder. -/
theorem alike_hop (hstore : s.store = t.store)
    (h : ∀ column, s.value (o.read column) = t.value (o'.read column)) (next : Hop)
    (holder : String) : Alike m s t holder (o.hop next) (o'.hop next) := by
  have hvalues : s.filterValues (next.joins.map fun join => (join.target, o.read join.source)) =
      t.filterValues (next.joins.map fun join => (join.target, o'.read join.source)) :=
    Scene.filterValues_congr fun join _ => h join.source
  refine ⟨fun column => ?_, fun texts column => ?_⟩
  · rw [Origin.hop, Origin.hop, Origin.read, Origin.read, Scene.value, Scene.value, hvalues, hstore]
  · show s.value (.lookup texts column (_ ++ [("locale", .locale)])) =
      t.value (.lookup texts column (_ ++ [("locale", .locale)]))
    rw [Scene.value_translationLookup, Scene.value_translationLookup, hstore]
    exact congrArg (·.bind (t.store.translationOf texts column)) hvalues

/-- Origins that are alike lead to origins that are alike; only where there are no hops the
holder has to stay the same. -/
theorem Alike.along (hstore : s.store = t.store) (h : Alike m s t holder o o') (hops : List Hop)
    {last : String} (hlocal : hops = [] → last = holder) :
    Alike m s t last (o.along hops) (o'.along hops) := by
  induction hops generalizing o o' holder with
  | nil =>
      rw [hlocal rfl]
      exact h
  | cons next hops ih =>
      have hnext : Alike m s t last (o.hop next) (o'.hop next) :=
        alike_hop hstore h.read next last
      exact ih hnext fun _ => rfl

theorem Alike.value_terminal {route : Route} (h : Alike m s t route.holder o o')
    (column : String) :
    s.value (terminal m route o column) = t.value (terminal m route o' column) := by
  unfold terminal
  dsimp only
  split
  · rename_i texts _ _
    rw [Scene.value, Scene.value, Scene.firstValue_eq_findSome?, Scene.firstValue_eq_findSome?,
      List.findSome?_cons, List.findSome?_cons, List.findSome?_cons, List.findSome?_cons,
      h.translation texts column, h.read column]
    rfl
  · exact h.read column

/-- Along a route from origins that are alike the same is recorded. -/
theorem Alike.value_routeValue (hstore : s.store = t.store) {start : Entity} {path : String}
    {route : Route} (h : Alike m s t start.name o o') (hroute : m.route start path = .ok route) :
    s.value (routeValue m route o) = t.value (routeValue m route o') := by
  have hlast : Alike m s t route.holder (o.along route.hops) (o'.along route.hops) :=
    h.along hstore route.hops fun hlocal =>
      ((Model.leads_of_route hroute).endsAt hlocal).endsOn.2
  by_cases hcolumns : ∃ column, route.columns = [column]
  · obtain ⟨column, hcolumn⟩ := hcolumns
    rw [Plan.routeValue_of_column hcolumn, Plan.routeValue_of_column hcolumn, Plan.encode,
      Plan.encode, Scene.value, Scene.value, hlast.value_terminal]
  · have hkey : ∀ column, route.columns ≠ [column] := not_exists.mp hcolumns
    rw [Plan.routeValue_of_key hkey, Plan.routeValue_of_key hkey, Scene.value_keyOfTexts,
      Scene.value_keyOfTexts]
    exact congrArg Plan.joinKey (List.map_congr_left fun column _ => hlast.read column)

end Alike

/-! ## Phrases -/

/-- What a path from an origin contributes to a phrase: nothing when it does not resolve. -/
def pathPart? (m : Model) (s : Scene) (start : Entity) (path : String) (origin : Origin) :
    Option (Option String) :=
  (pathValue m start path origin).toOption.map s.value

theorem value_phrase (m : Model) (s : Scene) (start : Entity) (paths : List (String × Origin)) :
    (phrase m start paths).bind s.value =
      (Plan.joinNonEmpty (paths.filterMap fun p => pathPart? m s start p.1 p.2)).map
        Plan.truncate := by
  have hparts : (paths.filterMap fun p => pathPart? m s start p.1 p.2) =
      (paths.filterMap fun p => (pathValue m start p.1 p.2).toOption).map s.value := by
    rw [List.map_filterMap]
    rfl
  rw [hparts]
  unfold phrase
  split
  · rename_i hnone
    rw [hnone]
    rfl
  · rw [Option.bind_some, Scene.value, Scene.value, Scene.values_eq_map]
    rfl

theorem Alike.pathPart?_eq {m : Model} {s t : Scene} {start : Entity} {o o' : Origin}
    (hstore : s.store = t.store) (h : Alike m s t start.name o o') (path : String) :
    pathPart? m s start path o = pathPart? m t start path o' := by
  unfold pathPart? pathValue
  cases hroute : m.route start path with
  | error deadEnd => rfl
  | ok route => exact congrArg some (h.value_routeValue hstore hroute)

/-- Identifiers are the same where every field is read from origins that are alike. -/
theorem value_identifier_congr {m : Model} {s t : Scene} {e : Entity} {key key' : List String}
    {o o' : Origin} {fields : List IdentityField} (hstore : s.store = t.store)
    (h : ∀ field ∈ fields,
      Alike m s t e.name (fieldOrigin m e key o field) (fieldOrigin m e key' o' field)) :
    (identifier m e fields key o).bind s.value = (identifier m e fields key' o').bind t.value := by
  rw [identifier, identifier, value_phrase, value_phrase, List.filterMap_map, List.filterMap_map]
  refine congrArg (fun parts => (Plan.joinNonEmpty parts).map Plan.truncate) ?_
  exact List.filterMap_congr fun field hfield => (h field hfield).pathPart?_eq hstore field.path

/-- A record of a table is not read back once more. -/
theorem fieldOrigin_keyed (m : Model) (e : Entity) (key : List String) (table : String)
    (filters : List (String × Expr)) (field : IdentityField) :
    fieldOrigin m e key (.keyed table filters) field = .keyed table filters := by
  unfold fieldOrigin Origin.readBack
  split
  · split <;> rfl
  · rfl

end ChangeTracking.Firing
