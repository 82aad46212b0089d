import ChangeTracking.Proofs.Firing.Guards
import ChangeTracking.Proofs.Sql.Joins
import ChangeTracking.Proofs.Sql.Lookups
import ChangeTracking.Proofs.Sql.Tests

/-!
# Rendered values and guards

The texts that are rendered for SQLite mean what evaluation computes.  The induction over
an expression carries two facts: what its term says, and, if the term is a query, what
this query finds row by row, which is what ranking needs to know.
-/

namespace ChangeTracking.Sql

open Firing (Row Scene)
open Engine
open Plan (Expr Guard RowRole)

/-! ## Expressions in question -/

/-- The expression itself reads the two rows of the trigger alone, has a part for every
operator, and is no truth value by name. -/
def IsPlain : Expr → Prop
  | .column row _ => row = .old ∨ row = .new
  | .variable _ => False
  | .lookup _ _ filters => filters ≠ []
  | .keyJoin parts => parts ≠ []
  | .listJoin parts => parts ≠ []
  | .firstOf parts => 2 ≤ parts.length
  | .encoded rule _ => rule ≠ .booleanText
  | _ => True

instance : DecidablePred IsPlain
  | .column row _ => inferInstanceAs (Decidable (row = .old ∨ row = .new))
  | .variable _ => .isFalse id
  | .lookup _ _ filters => inferInstanceAs (Decidable (filters ≠ []))
  | .keyJoin parts => inferInstanceAs (Decidable (parts ≠ []))
  | .listJoin parts => inferInstanceAs (Decidable (parts ≠ []))
  | .firstOf parts => inferInstanceAs (Decidable (2 ≤ parts.length))
  | .encoded rule _ => inferInstanceAs (Decidable (rule ≠ .booleanText))
  | .null => .isTrue trivial
  | .text _ => .isTrue trivial
  | .locale => .isTrue trivial

/-- A look-up names its table and its columns unmistakably, and one row at most has the
values of its filters. -/
structure FindsOne (d : Dialect) (s : Scene) (entity column : String)
    (filters : List (String × Expr)) : Prop where
  tellsTable : TellsTable d s.store entity
  tellsColumn : ∀ row ∈ s.store.rowsOf entity, TellsColumn row column
  tellsFilters : ∀ row ∈ s.store.rowsOf entity, ∀ f ∈ filters, TellsColumn row f.1
  unique : ∀ values ∈ s.filterValues filters,
    ((s.store.rowsOf entity).filter (·.has values)).length ≤ 1

instance (d : Dialect) (s : Scene) (entity column : String) (filters : List (String × Expr)) :
    Decidable (FindsOne d s entity column filters) :=
  decidable_of_iff (TellsTable d s.store entity ∧
      (∀ row ∈ s.store.rowsOf entity, TellsColumn row column) ∧
      (∀ row ∈ s.store.rowsOf entity, ∀ f ∈ filters, TellsColumn row f.1) ∧
      ∀ values ∈ s.filterValues filters,
        ((s.store.rowsOf entity).filter (·.has values)).length ≤ 1)
    ⟨fun h => ⟨h.1, h.2.1, h.2.2.1, h.2.2.2⟩,
      fun h => ⟨h.tellsTable, h.tellsColumn, h.tellsFilters, h.unique⟩⟩

/-- The expression itself names what it reads unmistakably. -/
def IsTold (d : Dialect) (s : Scene) : Expr → Prop
  | .column role name => ∀ row ∈ s.row role, TellsColumn row name
  | .lookup entity column filters => FindsOne d s entity column filters
  | _ => True

instance (d : Dialect) (s : Scene) : DecidablePred (IsTold d s)
  | .column role name => inferInstanceAs (Decidable (∀ row ∈ s.row role, TellsColumn row name))
  | .lookup entity column filters =>
      inferInstanceAs (Decidable (FindsOne d s entity column filters))
  | .null => .isTrue trivial
  | .text _ => .isTrue trivial
  | .variable _ => .isTrue trivial
  | .locale => .isTrue trivial
  | .keyJoin _ => .isTrue trivial
  | .listJoin _ => .isTrue trivial
  | .firstOf _ => .isTrue trivial
  | .encoded _ _ => .isTrue trivial

/-! ## Filters -/

theorem any_has_cons (s : Scene) (column : String) (e : Expr) (filters : List (String × Expr))
    (row : Row) :
    (s.filterValues ((column, e) :: filters)).any row.has =
      ((s.value e).any (fun value => row.get? column == some value)
        && (s.filterValues filters).any row.has) := by
  rw [Scene.filterValues]
  cases s.value e with
  | none => rfl
  | some value => cases s.filterValues filters <;> simp [Row.has]

variable {quoted : Bool} {s : Scene} {session : String → Option String}

/-- The filters of a look-up are true for a row exactly when it has their values. -/
theorem exists_filters {entity : String} {filters : List (String × Expr)}
    (htable : TellsTable (.sqlite quoted) s.store entity)
    (hterms : ∀ f ∈ filters, Term.Says quoted (Sees (.sqlite quoted) s session)
      (Term.ofExpr (.sqlite quoted) f.2) (s.value f.2)) :
    ∃ conditions, List.Forall₂ WritesTest (Term.filterFragments (.sqlite quoted)
        (Term.ofFilters (.sqlite quoted) filters)) conditions ∧
      ∀ env, Sees (.sqlite quoted) s session env → ∀ row : Row,
        (∀ f ∈ filters, TellsColumn row f.1) →
        (every (truths conditions (env.enter (some ((Dialect.sqlite quoted).catalogTable entity))
          (cellsOf row))) == some true) = (s.filterValues filters).any row.has := by
  induction filters with
  | nil => exact ⟨[], .nil, fun _ _ _ _ => rfl⟩
  | cons f filters ih =>
      obtain ⟨column, e⟩ := f
      obtain ⟨values, hwrites, hdenote⟩ := hterms (column, e) List.mem_cons_self
      obtain ⟨conditions, hwritess, htruths⟩ := ih fun f hf => hterms f (List.mem_cons_of_mem _ hf)
      have hcolumn : WritesValue (.ofText (Text.sqlIdentifier column)) [.column column] := by
        refine ⟨[.mark (.name column)], ?_, .single rfl rfl rfl⟩
        simpa using spells_name column
      have htest := hcolumn.compare hwrites isGlue_equals rfl
        (g := .ofText ((Dialect.sqlite quoted).columnName column ++ " = ") ++
          Term.fragment (.sqlite quoted) (Term.ofExpr (.sqlite quoted) e))
        (by simp [columnName_sqlite])
      refine ⟨_ :: conditions, .cons htest hwritess, fun env henv row hrow => ?_⟩
      -- The value of a filter is the same inside the query as around it.
      have hinner := hdenote _ (henv.enter_table htable (cellsOf row))
      have hrest := htruths env henv row fun f hf => hrow f (List.mem_cons_of_mem _ hf)
      have hcell : (cellsOf row).get column = (row.get? column).map .text :=
        get_cellsOf (hrow (column, e) List.mem_cons_self)
      rw [truths, every_cons, both_beq_some_true, hrest, any_has_cons, ← truth_equal_beq, ← hcell,
        ← hinner]
      rfl

/-- The rows that a look-up finds hold what its record does. -/
theorem exists_finds {entity column : String} {filters : List (String × Expr)}
    (hfilters : filters ≠ []) (hone : FindsOne (.sqlite quoted) s entity column filters)
    (hterms : ∀ f ∈ filters, Term.Says quoted (Sees (.sqlite quoted) s session)
      (Term.ofExpr (.sqlite quoted) f.2) (s.value f.2)) :
    ∃ found, Select.Finds quoted s session
        (.from entity column (Term.ofFilters (.sqlite quoted) filters)) found ∧
      found.length ≤ 1 ∧ found.head?.join = s.value (.lookup entity column filters) := by
  obtain ⟨conditions, hwrites, htruths⟩ := exists_filters hone.tellsTable hterms
  have hne : Term.filterFragments (.sqlite quoted) (Term.ofFilters (.sqlite quoted) filters) ≠ [] := by
    cases filters with
    | nil => exact absurd rfl hfilters
    | cons f filters => exact List.cons_ne_nil _ _
  refine ⟨((s.store.rowsOf entity).filter fun row => (s.filterValues filters).any row.has).map
    (·.get? column), ⟨_, writesCondition_conjunction hwrites hne, ?_⟩, ?_, ?_⟩
  · -- A row is kept exactly where every filter has a value and the row has them all.
    intro env henv
    have htable : env.database.tables ((Dialect.sqlite quoted).catalogTable entity) =
        (s.store.rowsOf entity).map cellsOf := by
      rw [henv.database]
      exact tablesOf_catalogTable hone.tellsTable
    have hkept : ∀ row ∈ s.store.rowsOf entity,
        ((joined .conjunction conditions).truth (env.enter (some ((Dialect.sqlite quoted).catalogTable
          entity)) (cellsOf row)) == some true) = (s.filterValues filters).any row.has := by
      intro row hrow
      rw [truth_joined_conjunction, htruths env henv row (hone.tellsFilters row hrow)]
    rw [htable, List.filter_map, List.map_map, List.map_map]
    simp only [Function.comp_def]
    rw [List.filter_congr hkept]
    apply List.map_congr_left
    intro row hrow
    exact get_cellsOf (hone.tellsColumn row (List.mem_of_mem_filter hrow))
  · rw [List.length_map]
    cases hvalues : s.filterValues filters with
    | none => simp
    | some values => exact hone.unique values hvalues
  · rw [Scene.value]
    cases hvalues : s.filterValues filters with
    | none => simp
    | some values =>
        simp only [Option.any_some, Option.bind_some, Firing.Store.find?, ← List.head?_filter]
        cases (s.store.rowsOf entity).filter fun row => row.has values <;> rfl

/-! ## Values -/

/-- The term says the value of the expression, and as a query it finds one row at most. -/
def IsSaid (quoted : Bool) (s : Scene) (session : String → Option String) (e : Expr) : Prop :=
  Term.Says quoted (Sees (.sqlite quoted) s session) (Term.ofExpr (.sqlite quoted) e) (s.value e) ∧
    ∀ query, (Term.ofExpr (.sqlite quoted) e).query? = some query →
      ∃ found, query.Finds quoted s session found ∧ found.length ≤ 1 ∧
        found.head?.join = s.value e

theorem IsSaid.of_not_query {e : Expr}
    (h : Term.Says quoted (Sees (.sqlite quoted) s session) (Term.ofExpr (.sqlite quoted) e)
      (s.value e))
    (hquery : (Term.ofExpr (.sqlite quoted) e).query? = none) : IsSaid quoted s session e := by
  refine ⟨h, fun query hsome => ?_⟩
  rw [hquery] at hsome
  cases hsome

theorem forall₂_said {parts : List Expr} (h : ∀ e ∈ parts, IsSaid quoted s session e) :
    List.Forall₂ (Term.Says quoted (Sees (.sqlite quoted) s session))
      (Term.ofExprs (.sqlite quoted) parts) (s.values parts) := by
  induction parts with
  | nil => exact .nil
  | cons e parts ih =>
      exact .cons (h e List.mem_cons_self).1 (ih fun other hother =>
        h other (List.mem_cons_of_mem _ hother))

/-- Parts that are all queries find their values row by row. -/
theorem exists_founds {parts : List Expr} (h : ∀ e ∈ parts, IsSaid quoted s session e)
    {queries : List Select}
    (hqueries : (Term.ofExprs (.sqlite quoted) parts).mapM Term.query? = some queries) :
    queries.length = parts.length ∧
      ∃ founds, List.Forall₂ (Select.Finds quoted s session) queries founds ∧
        (∀ found ∈ founds, found.length ≤ 1) ∧
        founds.findSome? (fun found => found.head?.join) = s.firstValue parts := by
  -- Part by part: the first value found is that of the first query with a row that holds one.
  induction parts generalizing queries with
  | nil =>
      obtain rfl : queries = [] := by
        rw [Term.ofExprs, List.mapM_nil] at hqueries
        exact (Option.some.inj hqueries).symm
      exact ⟨rfl, [], .nil, by simp, rfl⟩
  | cons e parts ih =>
      rw [Term.ofExprs, List.mapM_cons] at hqueries
      obtain ⟨query, hquery, hqueries⟩ := Option.bind_eq_some_iff.mp hqueries
      obtain ⟨rest, hrest, hqueries⟩ := Option.bind_eq_some_iff.mp hqueries
      obtain rfl : query :: rest = queries := Option.some.inj hqueries
      obtain ⟨found, hfinds, hlength, hfound⟩ := (h e List.mem_cons_self).2 query hquery
      obtain ⟨hrestLength, founds, hfinds', hlengths, hfounds⟩ :=
        ih (fun other hother => h other (List.mem_cons_of_mem _ hother)) hrest
      refine ⟨congrArg (· + 1) hrestLength, found :: founds, .cons hfinds hfinds', ?_, ?_⟩
      · intro other hother
        rcases List.mem_cons.mp hother with rfl | hother
        · exact hlength
        · exact hlengths other hother
      · rw [List.findSome?_cons, hfound, hfounds, Scene.firstValue]
        cases s.value e <;> rfl

/-- The first part that is there, ranked or not. -/
theorem says_firstOf {parts : List Expr} (h : ∀ e ∈ parts, IsSaid quoted s session e)
    (hlength : 2 ≤ parts.length) :
    Term.Says quoted (Sees (.sqlite quoted) s session)
      (Term.firstOf (.sqlite quoted) (Term.ofExprs (.sqlite quoted) parts))
      (s.firstValue parts) := by
  have hterms : (Term.ofExprs (.sqlite quoted) parts).length = parts.length := by
    rw [Term.ofExprs_eq_map, List.length_map]
  unfold Term.firstOf
  split
  -- All parts are queries, and ranking has to agree with the order of the parts.
  · next queries _ hqueries =>
      obtain ⟨hqueriesLength, founds, hfinds, hone, hvalue⟩ := exists_founds h hqueries
      rw [← hvalue]
      exact says_ranked hfinds (by omega) hone
  · have hcoalesce := Term.says_coalesce (forall₂_said h) (by omega)
    rw [Scene.values_eq_map, List.findSome?_map] at hcoalesce
    rw [Scene.firstValue_eq_findSome?]
    exact hcoalesce

theorem query?_firstOf (d : Dialect) (ts : List Term) : (Term.firstOf d ts).query? = none := by
  unfold Term.firstOf
  split <;> rfl

theorem query?_phrase (ts : List Term) : (Term.phrase ts).query? = none := by
  unfold Term.phrase
  split <;> rfl

/-- Every expression in question is said by its term. -/
theorem isSaid_of_isPlain (hlocale : session (Dialect.sqlite quoted).localeKey = s.store.locale)
    (e : Expr) (hplain : e.Everywhere IsPlain) (htold : e.Everywhere (IsTold (.sqlite quoted) s)) :
    IsSaid quoted s session e := by
  -- On the expression: only a look-up is lowered to a query, so only there is more to show.
  induction e using Expr.inductOn with
  | null => exact .of_not_query Term.says_null rfl
  | text value => exact .of_not_query (Term.says_literal value) rfl
  | column row name =>
      rw [Expr.everywhere_column] at hplain htold
      exact .of_not_query (Term.says_rowColumn hplain htold) rfl
  | ofLocal name => exact (Expr.everywhere_variable.mp hplain).elim
  | locale =>
      have hterms := @Term.says_setting quoted s session (Dialect.sqlite quoted).localeKey
      rw [hlocale] at hterms
      exact .of_not_query hterms rfl
  | lookup entity column filters ih =>
      rw [Expr.everywhere_lookup] at hplain htold
      have hterms : ∀ f ∈ filters, Term.Says quoted (Sees (.sqlite quoted) s session)
          (Term.ofExpr (.sqlite quoted) f.2) (s.value f.2) := fun f hf =>
        (ih f hf (hplain.2 f hf) (htold.2 f hf)).1
      obtain ⟨found, hfinds, hlength, hvalue⟩ := exists_finds hplain.1 htold.1 hterms
      refine ⟨?_, ?_⟩
      · rw [← hvalue]
        exact hfinds.said
      · rintro query ⟨⟩
        exact ⟨found, hfinds, hlength, hvalue⟩
  | keyJoin parts ih =>
      rw [Expr.everywhere_keyJoin] at hplain htold
      have hparts := forall₂_said fun e he => ih e he (hplain.2 e he) (htold.2 e he)
      have hne : parts ≠ [] := hplain.1
      refine .of_not_query ?_ rfl
      rw [Scene.value]
      exact Term.says_keyJoin hparts (by simpa [Term.ofExprs_eq_map] using hne)
  | listJoin parts ih =>
      rw [Expr.everywhere_listJoin] at hplain htold
      have hparts := forall₂_said fun e he => ih e he (hplain.2 e he) (htold.2 e he)
      have hne : parts ≠ [] := hplain.1
      refine .of_not_query ?_ (query?_phrase _)
      rw [Scene.value]
      exact Term.says_phrase hparts (by simpa [Term.ofExprs_eq_map] using hne)
  | firstOf parts ih =>
      rw [Expr.everywhere_firstOf] at hplain htold
      refine .of_not_query ?_ (query?_firstOf _ _)
      rw [Scene.value]
      exact says_firstOf (fun e he => ih e he (hplain.2 e he) (htold.2 e he)) hplain.1
  | encoded rule inner ih =>
      rw [Expr.everywhere_encoded] at hplain htold
      have hinner := (ih hplain.2 htold.2).1
      cases rule with
      | booleanText => exact absurd rfl hplain.1
      | truncated =>
          refine .of_not_query ?_ rfl
          rw [Scene.value]
          exact Term.says_truncated hinner
      | cast valueClass =>
          refine .of_not_query ?_ rfl
          rw [Scene.value]
          have hvalue : (s.value inner).map (Plan.TextRule.cast valueClass).apply =
              s.value inner := by
            cases s.value inner <;> rfl
          rw [hvalue]
          exact Term.says_cast hinner valueClass

/-! ## Guards -/

/-- Every guard over expressions in question is said by its test, and never unknown. -/
theorem says_ofGuard (hlocale : session (Dialect.sqlite quoted).localeKey = s.store.locale)
    (g : Guard) (hplain : ∀ e ∈ g.values, e.Everywhere IsPlain)
    (htold : ∀ e ∈ g.values, e.Everywhere (IsTold (.sqlite quoted) s))
    (hflags : ∀ name ∈ g.flags, session name = some "true" ↔ s.skips.isFlagSet name = true) :
    Test.Says quoted (Sees (.sqlite quoted) s session) (Test.ofGuard (.sqlite quoted) g)
      (some (s.holds g)) := by
  have hsaid (e : Expr) (he : e.Everywhere IsPlain) (he' : e.Everywhere (IsTold (.sqlite quoted) s)) :=
    (isSaid_of_isPlain hlocale e he he').1
  have hlist {guards : List Guard}
      (ih : ∀ guard ∈ guards, (∀ e ∈ guard.values, e.Everywhere IsPlain) →
        (∀ e ∈ guard.values, e.Everywhere (IsTold (.sqlite quoted) s)) →
        (∀ name ∈ guard.flags, session name = some "true" ↔ s.skips.isFlagSet name = true) →
        Test.Says quoted (Sees (.sqlite quoted) s session) (Test.ofGuard (.sqlite quoted) guard)
          (some (s.holds guard)))
      (hplain : ∀ e ∈ Guard.allValues guards, e.Everywhere IsPlain)
      (htold : ∀ e ∈ Guard.allValues guards, e.Everywhere (IsTold (.sqlite quoted) s))
      (hflags : ∀ name ∈ Guard.allFlags guards,
        session name = some "true" ↔ s.skips.isFlagSet name = true) :
      List.Forall₂ (Test.Says quoted (Sees (.sqlite quoted) s session))
        (Test.ofGuards (.sqlite quoted) guards) ((guards.map s.holds).map some) := by
    rw [Test.ofGuards_eq_map, List.map_map, List.forall₂_map_left_iff, List.forall₂_map_right_iff,
      List.forall₂_same]
    exact fun guard hguard => ih guard hguard
      (fun e he => hplain e (Guard.mem_allValues.mpr ⟨guard, hguard, he⟩))
      (fun e he => htold e (Guard.mem_allValues.mpr ⟨guard, hguard, he⟩))
      (fun name hname => hflags name (Guard.mem_allFlags.mpr ⟨guard, hguard, hname⟩))
  -- On the guard: no test is ever unknown, so the negation of one says the opposite.
  induction g using Guard.inductOn with
  | notNull value =>
      have hvalue := hsaid value (hplain value (by simp [Guard.values]))
        (htold value (by simp [Guard.values]))
      exact Test.says_isNotNull hvalue
  | changed old new =>
      have hold := hsaid old (hplain old (by simp [Guard.values])) (htold old (by simp [Guard.values]))
      have hnew := hsaid new (hplain new (by simp [Guard.values])) (htold new (by simp [Guard.values]))
      exact Test.says_changed hold hnew
  | any guards ih =>
      have hany := Test.says_anyOf (hlist ih hplain htold hflags)
      rw [List.any_map] at hany
      rw [Scene.holds_any]
      exact hany
  | all guards ih =>
      have hall := Test.says_allOf (hlist ih hplain htold hflags)
      rw [List.all_map] at hall
      rw [Scene.holds_all]
      exact hall
  | negate inner ih => exact (ih hplain htold hflags).inBrackets.negation
  | flag name =>
      have hflag := @Test.says_flag quoted s session name
      have hset : (session name == some "true") = s.skips.isFlagSet name := by
        rw [Bool.eq_iff_iff, beq_iff_eq]
        exact hflags name (List.mem_singleton_self name)
      rw [hset] at hflag
      exact hflag

/-- The text rendered for SQLite means what evaluation computes.  The text of a value denotes
the value, and the text of a guard is never unknown and true exactly when the guard holds.
The session holds the locale under its key, and under the name of a flag the text `true`
exactly when the flag is set. -/
theorem rendered_means_evaluated (quoted : Bool) (s : Scene) (session : String → Option String)
    (hlocale : session (Dialect.sqlite quoted).localeKey = s.store.locale) :
    (∀ e : Expr, e.Everywhere IsPlain → e.Everywhere (IsTold (.sqlite quoted) s) →
      (readValue ((Dialect.sqlite quoted).render e).sent).map
        (·.denote (environmentOf (.sqlite quoted) s session)) =
          some ((s.value e).map .text)) ∧
    (∀ g : Guard, (∀ e ∈ g.values, e.Everywhere IsPlain) →
      (∀ e ∈ g.values, e.Everywhere (IsTold (.sqlite quoted) s)) →
      (∀ name ∈ g.flags, session name = some "true" ↔ s.skips.isFlagSet name = true) →
      (readCondition ((Dialect.sqlite quoted).renderGuard g).sent).map
        (·.truth (environmentOf (.sqlite quoted) s session)) =
          some (some (s.holds g))) := by
  have hsees := Sees.environmentOf (.sqlite quoted) s session
  constructor
  · intro e hplain htold
    obtain ⟨⟨values, hwrites, hdenote⟩, -⟩ := isSaid_of_isPlain hlocale e hplain htold
    rw [Dialect.render, readValue_sent hwrites, Option.map_some, hdenote _ hsees]
  · intro g hplain htold hflags
    obtain ⟨condition, hwrites, htruth⟩ := says_ofGuard hlocale g hplain htold hflags
    rw [Dialect.renderGuard, readCondition_sent hwrites, Option.map_some, htruth _ hsees]

/-- An order that moves from France to Germany, written in French by a writer that logs
orders itself. -/
def movedOrder : Scene where
  old := some ⟨[("country", "FR"), ("note", "it's late")]⟩
  new := some ⟨[("country", "DE"), ("note", "")]⟩
  subject := none
  store :=
    { rows := [
        ("shop.Countries", ⟨[("code", "FR"), ("name", "France")]⟩),
        ("shop.Countries", ⟨[("code", "DE"), ("name", "Germany")]⟩),
        ("shop.Countries_texts", ⟨[("code", "DE"), ("locale", "fr"), ("name", "Allemagne")]⟩)]
      locale := some "fr" }
  skips := { scopes := [.entity "shop.Orders"] }

/-- The name of the country, in the language of the session where there is one. -/
def countryName (row : RowRole) : Expr :=
  .firstOf [
    .lookup "shop.Countries_texts" "name" [("code", .column row "country"), ("locale", .locale)],
    .lookup "shop.Countries" "name" [("code", .column row "country")]]

/-- The new country and note, the old country within a key, and the country that has the old
name. -/
def moveLabel : Expr :=
  .listJoin [countryName .new, .encoded .truncated (.column .new "note"),
    .keyJoin [.encoded (.cast .other) (.column .old "country"), .text "o'x"],
    .lookup "shop.Countries" "code" [("name", countryName .old)]]

/-- The name of the country has changed, not everything is skipped, and either there is a
gift or orders are skipped. -/
def moveGuard : Guard :=
  .all [.changed (countryName .old) (countryName .new),
    .negate (.flag Skip.Scope.everything.flagName),
    .any [.notNull (.column .new "gift"), .flag (Skip.Scope.entity "shop.Orders").flagName]]

def frenchSession (key : String) : Option String :=
  if key = "$user.locale" then some "fr"
  else if key = (Skip.Scope.entity "shop.Orders").flagName then some "true"
  else none

/-- The texts rendered for the order that moves mean its label and its guard. -/
theorem rendered_movedOrder :
    frenchSession (Dialect.sqlite false).localeKey = movedOrder.store.locale ∧
      moveLabel.Everywhere IsPlain ∧
      moveLabel.Everywhere (IsTold (.sqlite false) movedOrder) ∧
      (∀ e ∈ moveGuard.values, e.Everywhere IsPlain) ∧
      (∀ e ∈ moveGuard.values, e.Everywhere (IsTold (.sqlite false) movedOrder)) ∧
      (∀ name ∈ moveGuard.flags,
        frenchSession name = some "true" ↔ movedOrder.skips.isFlagSet name = true) ∧
      (readValue ((Dialect.sqlite false).render moveLabel).sent).map
        (·.denote (environmentOf (.sqlite false) movedOrder frenchSession)) =
          some (some (.text "Allemagne, FR||o'x, FR")) ∧
      (readCondition ((Dialect.sqlite false).renderGuard moveGuard).sent).map
        (·.truth (environmentOf (.sqlite false) movedOrder frenchSession)) =
          some (some true) := by
  have hlocale : frenchSession (Dialect.sqlite false).localeKey = movedOrder.store.locale := by
    decide
  have hplain : moveLabel.Everywhere IsPlain := by decide
  have htold : moveLabel.Everywhere (IsTold (.sqlite false) movedOrder) := by decide
  have hplain' : ∀ e ∈ moveGuard.values, e.Everywhere IsPlain := by decide
  have htold' : ∀ e ∈ moveGuard.values, e.Everywhere (IsTold (.sqlite false) movedOrder) := by
    decide
  have hflags : ∀ name ∈ moveGuard.flags,
      frenchSession name = some "true" ↔ movedOrder.skips.isFlagSet name = true := by
    decide
  have hvalue : movedOrder.value moveLabel = some "Allemagne, FR||o'x, FR" := by decide
  have hholds : movedOrder.holds moveGuard = true := by decide
  have hmeaning := rendered_means_evaluated false movedOrder frenchSession hlocale
  refine ⟨hlocale, hplain, htold, hplain', htold', hflags, ?_, ?_⟩
  · rw [hmeaning.1 moveLabel hplain htold, hvalue]
    rfl
  · rw [hmeaning.2 moveGuard hplain' htold' hflags, hholds]

end ChangeTracking.Sql
