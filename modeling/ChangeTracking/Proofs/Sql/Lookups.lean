import ChangeTracking.Proofs.Sql.Terms

/-!
# What look-ups say

A look-up is a query for the rows of one table that have certain values.  Alone it says
what its first row holds.  Ranked look-ups say the first value that is there, because each
of them is told its rank and the values are sorted by it.
-/

namespace ChangeTracking.Sql

open Firing (Row Scene)
open Engine

/-! ## Look-ups alone -/

/-- The rows that the filters of a look-up keep hold the values found, in this order. -/
def Select.Finds (quoted : Bool) (s : Scene) (session : String → Option String) :
    Select → List (Option String) → Prop
  | .from entity column filters, found =>
      let table := (Dialect.sqlite quoted).catalogTable entity
      ∃ condition, WritesCondition
          (.join " AND " (Term.filterFragments (.sqlite quoted) filters)) condition ∧
        ∀ env, Sees (.sqlite quoted) s session env →
          ((env.database.tables table).filter fun cells =>
            condition.truth (env.enter (some table) cells) == some true).map (·.get column) =
              found.map (·.map .text)

theorem columnName_sqlite (quoted : Bool) (column : String) :
    (Dialect.sqlite quoted).columnName column = Text.sqlIdentifier column := by
  simp [Dialect.columnName, Dialect.catalogColumn, Dialect.sqlite]

/-- Without an order, the answers of a query come in the order of its rows. -/
theorem answers_unordered (results : List Value) (names : List String) (source : Source)
    (condition : Condition) (env : Environment) :
    (Query.select results names source condition [] none).answers env =
      ((source.rows env).filter fun cells =>
        condition.truth (env.enter source.name? cells) == some true).map
          fun cells => names.zip (denoteAll results (env.enter source.name? cells)) := by
  rw [Query.answers]
  -- Without keys any two rows are in order, and the sort is stable.
  simp only [denoteAll, Option.elim_none]
  exact congrArg _ (List.mergeSort_of_pairwise (List.pairwise_of_forall fun _ _ => rfl))

/-- A look-up says what the first row holds. -/
theorem Select.Finds.said {quoted : Bool} {s : Scene} {session : String → Option String}
    {query : Select} {found : List (Option String)} (h : query.Finds quoted s session found) :
    Term.Says quoted (Sees (.sqlite quoted) s session) (.scalar query) found.head?.join := by
  obtain ⟨entity, column, filters⟩ := query
  obtain ⟨condition, hwrites, hrows⟩ := h
  have hquery := writesQuery_select
    (f := .ofText ("SELECT " ++ Text.sqlIdentifier column ++ " FROM " ++ Text.sqlIdentifier
      ((Dialect.sqlite quoted).catalogTable entity) ++ " WHERE ") ++
        .join " AND " (Term.filterFragments (.sqlite quoted) filters))
    ((Dialect.sqlite quoted).catalogTable entity) (spells_name column) (isResults_column column)
    hwrites (by simp)
  refine ⟨_, hquery.scalar ?_, fun env henv => ?_⟩
  · simp [Term.fragment, columnName_sqlite, Dialect.tableName]
  · have hfound := hrows env henv
    rw [chained, Value.denote, answers_unordered]
    simp only [Source.rows, Source.name?]
    -- A scalar query without a row has no value, and with rows the value of the first one.
    cases hkept : (env.database.tables ((Dialect.sqlite quoted).catalogTable entity)).filter
        fun cells => condition.truth (env.enter (some ((Dialect.sqlite quoted).catalogTable entity))
          cells) == some true with
    | nil =>
        rw [hkept] at hfound
        obtain rfl : found = [] := by simpa using hfound.symm
        rfl
    | cons cells kept =>
        rw [hkept] at hfound
        cases found with
        | nil => cases hfound
        | cons x found => exact (List.cons.inj hfound).1

/-! ## Ranked look-ups -/

/-- The row that a ranked query answers with. -/
def rankedRow (rank : Nat) (x : Option String) : Cells :=
  [("VALUE", x.map .text), ("PRIORITY", some (.number rank))]

@[simp] theorem rankedRow_value (rank : Nat) (x : Option String) :
    (rankedRow rank x).get "VALUE" = x.map .text := by
  simp [rankedRow, Cells.get, sameName]

@[simp] theorem rankedRow_priority (rank : Nat) (x : Option String) :
    (rankedRow rank x).get "PRIORITY" = some (.number rank) := by
  have hvalue : sameName "VALUE" "PRIORITY" = false := by decide
  simp [rankedRow, Cells.get, hvalue, sameName_self]

/-- The rows that queries answer with, when the first one has the rank. -/
def rankedRows (rank : Nat) : List (List (Option String)) → List Cells
  | [] => []
  | found :: rest => found.map (rankedRow rank) ++ rankedRows (rank + 1) rest

/-- A query that tells its rank answers with the values found. -/
theorem Select.Finds.exists_ranked {quoted : Bool} {s : Scene} {session : String → Option String}
    {entity column : String} {filters : List (String × Term)} {found : List (Option String)}
    (h : (Select.from entity column filters).Finds quoted s session found) (rank : Nat) :
    ∃ query, WritesQuery (.ofText ("SELECT " ++ (Dialect.sqlite quoted).columnName column
        ++ " AS value, " ++ toString rank ++ " AS priority FROM "
        ++ (Dialect.sqlite quoted).tableName entity ++ " WHERE ")
        ++ .join " AND " (Term.filterFragments (.sqlite quoted) filters)) query ∧
      ∀ env, Sees (.sqlite quoted) s session env →
        query.answers env = found.map (rankedRow rank) := by
  obtain ⟨condition, hwrites, hrows⟩ := h
  have hvalue : IsGlue " AS value, " [.mark (.word "AS"), .mark (.word "VALUE"), .mark .comma] :=
    ⟨⟨[.word "AS", .word "VALUE", .comma], fun _ => rfl, fun _ _ => rfl⟩, rfl⟩
  have hpriority : Spells " AS priority".toList [.mark (.word "AS"), .mark (.word "PRIORITY")] :=
    ⟨[.word "AS", .word "PRIORITY"], fun _ => ⟨_, rfl, rfl⟩, fun _ _ => rfl⟩
  have hresults := (spells_name column).glue hvalue ((spells_number rank).append hpriority rfl)
  refine ⟨_, writesQuery_select ((Dialect.sqlite quoted).catalogTable entity) hresults
    (isResults_ranked column rank) hwrites ?_, fun env henv => ?_⟩
  · simp [columnName_sqlite, Dialect.tableName]
  · have hfound := hrows env henv
    rw [answers_unordered]
    have hmap := congrArg (List.map fun x : Option Scalar =>
      [("VALUE", x), ("PRIORITY", some (Scalar.number rank))]) hfound
    rw [List.map_map, List.map_map] at hmap
    exact hmap

/-- Ranked queries answer with the values found, one after another. -/
theorem exists_ranked {quoted : Bool} {s : Scene} {session : String → Option String}
    {queries : List Select} {founds : List (List (Option String))}
    (h : List.Forall₂ (Select.Finds quoted s session) queries founds) (rank : Nat) :
    ∃ ranked, List.Forall₂ WritesQuery (Term.rankedFragments (.sqlite quoted) rank queries) ranked ∧
      ∀ env, Sees (.sqlite quoted) s session env →
        allAnswers ranked env = rankedRows rank founds := by
  induction h generalizing rank with
  | nil => exact ⟨[], .nil, fun _ _ => rfl⟩
  | @cons query found queries founds hfirst hrest ih =>
      obtain ⟨entity, column, filters⟩ := query
      obtain ⟨first, hwrites, hanswers⟩ := hfirst.exists_ranked rank
      obtain ⟨rest, hwritess, hanswerss⟩ := ih (rank + 1)
      refine ⟨first :: rest, .cons hwrites hwritess, fun env henv => ?_⟩
      rw [allAnswers, hanswers env henv, hanswerss env henv]
      rfl

theorem rankedRow_of_mem {rank : Nat} {founds : List (List (Option String))} {cells : Cells}
    (h : cells ∈ rankedRows rank founds) :
    ∃ other x, rank ≤ other ∧ cells = rankedRow other x := by
  induction founds generalizing rank with
  | nil => cases h
  | cons found founds ih =>
      rcases List.mem_append.mp h with h | h
      · obtain ⟨x, -, rfl⟩ := List.mem_map.mp h
        exact ⟨rank, x, Nat.le_refl _, rfl⟩
      · obtain ⟨other, x, hother, rfl⟩ := ih h
        exact ⟨other, x, by omega, rfl⟩

theorem inOrder_number {a b : Nat} (h : a ≤ b) :
    inOrder [some (.number a)] [some (.number b)] = true := by
  by_cases hab : a = b
  · simp [inOrder, hab]
  · have hlt : a < b := by omega
    simp [inOrder, hab, Scalar.lt, hlt]

/-- The ranks already stand in order. -/
theorem pairwise_rankedRows (rank : Nat) (founds : List (List (Option String))) :
    (rankedRows rank founds).Pairwise fun a b =>
      inOrder [a.get "PRIORITY"] [b.get "PRIORITY"] = true := by
  -- Query by query: the rows of one have one rank, and those of later ones a greater rank.
  induction founds generalizing rank with
  | nil => exact .nil
  | cons found founds ih =>
      rw [rankedRows, List.pairwise_append]
      refine ⟨?_, ih (rank + 1), ?_⟩
      · rw [List.pairwise_map]
        refine List.pairwise_of_forall fun x y => ?_
        rw [rankedRow_priority, rankedRow_priority]
        exact inOrder_number (Nat.le_refl rank)
      · intro a ha b hb
        obtain ⟨x, -, rfl⟩ := List.mem_map.mp ha
        obtain ⟨other, y, hother, rfl⟩ := rankedRow_of_mem hb
        rw [rankedRow_priority, rankedRow_priority]
        exact inOrder_number (by omega)

theorem map_value_rankedRows (rank : Nat) (founds : List (List (Option String))) :
    (rankedRows rank founds).map (·.get "VALUE") = founds.flatten.map (·.map .text) := by
  induction founds generalizing rank with
  | nil => rfl
  | cons found founds ih => simp [rankedRows, ih]

/-- The first element that has a value has the first value. -/
theorem head?_filter_isSome_bind {α β : Type} (f : α → Option β) (l : List α) :
    (l.filter fun a => (f a).isSome).head?.bind f = l.findSome? f := by
  induction l with
  | nil => rfl
  | cons a l ih =>
      rw [List.findSome?_cons, List.filter_cons]
      cases ha : f a with
      | none => simpa using ih
      | some b => simp [ha]

/-- The query for the first ranked value finds the first one that is there. -/
theorem denote_firstRanked {queries : List Query} {env : Environment} {rank : Nat}
    {founds : List (List (Option String))} (h : allAnswers queries env = rankedRows rank founds) :
    (Value.scalar (firstRanked queries)).denote env =
      (founds.flatten.findSome? id).map .text := by
  have hcolumn (cells : Cells) (name : String) :
      (env.enter none cells).column name = cells.get name := rfl
  have hthere (x : Option Scalar) : ((some x.isNone).map not == some true) = x.isSome := by
    cases x <;> rfl
  -- Filtering keeps the order of the ranks, so sorting by rank changes nothing.
  have hsorted := List.mergeSort_of_pairwise
    ((pairwise_rankedRows rank founds).filter fun cells => (cells.get "VALUE").isSome)
  have hfirst := head?_filter_isSome_bind (·.get "VALUE") (rankedRows rank founds)
  have hvalues : (rankedRows rank founds).findSome? (·.get "VALUE") =
      (founds.flatten.findSome? id).map .text := by
    have hmap := congrArg (List.findSome? id) (map_value_rankedRows rank founds)
    rw [List.findSome?_map, List.findSome?_map] at hmap
    rw [List.map_findSome?]
    exact hmap
  rw [← hvalues, ← hfirst, Value.denote, firstRanked, Query.answers]
  simp only [Source.rows, Source.name?, h, denoteAll, Value.denote, Condition.truth, hcolumn,
    hthere, hsorted, Option.elim_some]
  cases (rankedRows rank founds).filter fun cells => (cells.get "VALUE").isSome <;> rfl

theorem length_rankedFragments (d : Dialect) (rank : Nat) (queries : List Select) :
    (Term.rankedFragments d rank queries).length = queries.length := by
  induction queries generalizing rank with
  | nil => rfl
  | cons query queries ih =>
      obtain ⟨entity, column, filters⟩ := query
      rw [Term.rankedFragments, List.length_cons, ih, List.length_cons]

theorem findSome?_flatten {founds : List (List (Option String))}
    (hone : ∀ found ∈ founds, found.length ≤ 1) :
    founds.flatten.findSome? id = founds.findSome? fun found => found.head?.join := by
  induction founds with
  | nil => rfl
  | cons found founds ih =>
      have hrest := ih fun other hother => hone other (List.mem_cons_of_mem _ hother)
      have hlength := hone found List.mem_cons_self
      rw [List.flatten_cons, List.findSome?_append, hrest, List.findSome?_cons]
      match found with
      | [] => rfl
      | [x] => cases x <;> rfl
      | _ :: _ :: _ => simp at hlength

/-- Ranked look-ups, each of which finds one row at most, say the first value that is
there. -/
theorem says_ranked {quoted : Bool} {s : Scene} {session : String → Option String}
    {queries : List Select} {founds : List (List (Option String))}
    (h : List.Forall₂ (Select.Finds quoted s session) queries founds)
    (hlength : 2 ≤ queries.length) (hone : ∀ found ∈ founds, found.length ≤ 1) :
    Term.Says quoted (Sees (.sqlite quoted) s session) (.ranked queries)
      (founds.findSome? fun found => found.head?.join) := by
  obtain ⟨ranked, hwrites, hanswers⟩ := exists_ranked h 0
  have hranked : 2 ≤ ranked.length := by
    rwa [← hwrites.length_eq, length_rankedFragments]
  have hne : Term.rankedFragments (.sqlite quoted) 0 queries ≠ [] := by
    apply List.ne_nil_of_length_pos
    rw [length_rankedFragments]
    omega
  refine ⟨_, writesValue_firstRanked (writesUnion_join hwrites hne) hranked ?_,
    fun env henv => ?_⟩
  · simp [Term.fragment]
  · rw [chained, denote_firstRanked (hanswers env henv), findSome?_flatten hone]

end ChangeTracking.Sql
