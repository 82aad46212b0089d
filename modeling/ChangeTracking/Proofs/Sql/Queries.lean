import ChangeTracking.Proofs.Sql.Writing

/-!
# Written choices and queries

What the clauses of a choice or of a query read as.  A clause ends at the word that opens
the next one, and the values and conditions inside it never hold such a word.
-/

namespace ChangeTracking.Sql.Engine

/-! ## Choices -/

/-- The items of a branch without the word that opens it. -/
inductive IsBranch : List Item → Condition × Value → Prop
  | mk {conditionItems valueItems : List Item} {condition : Condition} {values : List Value}
      (hcondition : IsCondition conditionItems condition) (hvalue : IsChain valueItems values) :
      IsBranch (conditionItems ++ .mark (.word "THEN") :: valueItems) (condition, chained values)

namespace IsBranch

variable {items : List Item} {branch : Condition × Value}

theorem branch?_eq (h : IsBranch items branch) (otherwise : Value) :
    branch? items otherwise = some (.choose branch.1 branch.2 otherwise) := by
  cases h with
  | @mk conditionItems valueItems condition values hcondition hvalue =>
      have hfront : Lacks (.word "THEN") conditionItems := hcondition.lacks rfl
      have hback : Lacks (.word "THEN") valueItems := hvalue.lacks (by decide)
      have hsplit := hfront.split_append valueItems
      rw [hback.split] at hsplit
      simp [branch?, hsplit, hcondition.read, hvalue.value?_eq]

/-- No word opens another clause inside a branch. -/
theorem lacks (h : IsBranch items branch) {word : String} (hrank : wordRank word = 4)
    (hthen : word ≠ "THEN") : Lacks (.word word) items := by
  cases h with
  | @mk conditionItems valueItems condition values hcondition hvalue =>
      have htoken : (Token.word word).rank = 4 := hrank
      have hback : Lacks (.word word) valueItems := hvalue.lacks (by omega)
      simpa [hback, hthen.symm] using hcondition.lacks htoken

theorem forall_lacks {branchItems : List (List Item)} {branches : List (Condition × Value)}
    (h : List.Forall₂ IsBranch branchItems branches) {word : String} (hrank : wordRank word = 4)
    (hthen : word ≠ "THEN") : ∀ items ∈ branchItems, Lacks (.word word) items := by
  induction h with
  | nil => exact List.forall_mem_nil _
  | cons hfirst _ ih => exact List.forall_mem_cons.mpr ⟨hfirst.lacks hrank hthen, ih⟩

theorem foldrM_branch? {branchItems : List (List Item)} {branches : List (Condition × Value)}
    (h : List.Forall₂ IsBranch branchItems branches) (otherwise : Value) :
    branchItems.foldrM branch? otherwise =
      some (branches.foldr (fun branch => .choose branch.1 branch.2) otherwise) := by
  induction h with
  | nil => rfl
  | cons hfirst _ ih =>
      rw [List.foldrM_cons, ih, List.foldr_cons]
      exact hfirst.branch?_eq _

end IsBranch

/-- Where no branch holds the word, it splits the branches from one another. -/
theorem splitOnP_branches {items : List Item} {branchItems : List (List Item)}
    (hitems : Lacks (.word "WHEN") items) (h : ∀ items ∈ branchItems, Lacks (.word "WHEN") items) :
    (items ++ branchItems.flatMap (.mark (.word "WHEN") :: ·)).splitOnP (·.isMark (.word "WHEN")) =
      items :: branchItems := by
  induction branchItems generalizing items with
  | nil => simpa using hitems.split
  | cons first rest ih =>
      obtain ⟨hfirst, hrest⟩ := List.forall_mem_cons.mp h
      rw [List.flatMap_cons, List.cons_append, hitems.split_append, ih hfirst hrest]

/-- The words of a choice. -/
theorem choice?_eq {branchItems : List (List Item)} {branches : List (Condition × Value)}
    {otherItems : List Item} {others : List Value}
    (h : List.Forall₂ IsBranch branchItems branches) (hother : IsChain otherItems others) :
    choice? (branchItems.flatMap (.mark (.word "WHEN") :: ·) ++
      .mark (.word "ELSE") :: otherItems) =
        some (branches.foldr (fun branch => .choose branch.1 branch.2) (chained others)) := by
  have helse : Lacks (.word "ELSE") (branchItems.flatMap (.mark (.word "WHEN") :: ·)) := by
    intro item hitem
    obtain ⟨items, hitems, hitem⟩ := List.mem_flatMap.mp hitem
    rcases List.mem_cons.mp hitem with rfl | hitem
    · rfl
    · exact IsBranch.forall_lacks h rfl (by decide) items hitems item hitem
  have hotherwise : Lacks (.word "ELSE") otherItems := hother.lacks (by decide)
  -- Nothing stands in front of `WHEN`, so the part before the first one is empty.
  have hsplit := splitOnP_branches lacks_nil (IsBranch.forall_lacks h rfl (by decide))
  rw [List.nil_append] at hsplit
  rw [choice?, helse.split_append, hotherwise.split]
  simp only [hsplit, hother.value?_eq, Option.bind_some, IsBranch.foldrM_branch? h]

theorem writesValue_choose {f g o whole : Fragment} {condition : Condition}
    {values others : List Value} (hf : WritesCondition f condition) (hg : WritesValue g values)
    (ho : WritesValue o others)
    (hwhole : whole.sent.toList = "CASE".toList ++ (" WHEN ".toList ++ (f.sent.toList ++
      (" THEN ".toList ++ (g.sent.toList ++ (" ELSE ".toList ++ o.sent.toList))))) ++
        " END".toList) :
    WritesValue whole [.choose condition (chained values) (chained others)] := by
  obtain ⟨conditionItems, hconditionSpells, hcondition⟩ := hf
  obtain ⟨valueItems, hvalueSpells, hvalue⟩ := hg
  obtain ⟨otherItems, hotherSpells, hother⟩ := ho
  have hwhen : IsGlue " WHEN " [.mark (.word "WHEN")] :=
    ⟨⟨[.word "WHEN"], fun _ => rfl, fun _ _ => rfl⟩, rfl⟩
  have hthen : IsGlue " THEN " [.mark (.word "THEN")] :=
    ⟨⟨[.word "THEN"], fun _ => rfl, fun _ _ => rfl⟩, rfl⟩
  have helse : IsGlue " ELSE " [.mark (.word "ELSE")] :=
    ⟨⟨[.word "ELSE"], fun _ => rfl, fun _ _ => rfl⟩, rfl⟩
  have hinside := hwhen.leads.append_spells
    (hconditionSpells.glue hthen (hvalueSpells.glue helse hotherSpells))
  refine ⟨[.value (.choose condition (chained values) (chained others))], ?_, isChain_value _⟩
  rw [hwhole]
  refine hinside.choice (startsDelimited_append hwhen.delimited _) ?_
  simpa using choice?_eq (.cons (.mk hcondition hvalue) .nil) hother

/-! ## Queries of a table -/

/-- The items are a query without an order. -/
structure IsQuery (items : List Item) (query : Query) : Prop where
  read : select? [] none items = some query
  union : Lacks (.word "UNION") items
  limit : Lacks (.word "LIMIT") items

/-- The fragment reads as a query without an order. -/
def WritesQuery (f : Fragment) (query : Query) : Prop :=
  ∃ items, Spells f.sent.toList items ∧ IsQuery items query

/-- The items are the results of a query, with their names. -/
structure IsResults (items : List Item) (results : List (Value × String)) : Prop where
  read : (items.splitOnP (·.isMark .comma)).mapM result? = some results
  words : ∀ word, wordRank word = 4 → word ≠ "AS" → Lacks (.word word) items

theorem isQuery_select {resultItems conditionItems : List Item}
    {results : List (Value × String)} {condition : Condition} (table : String)
    (hresults : IsResults resultItems results) (hcondition : IsCondition conditionItems condition) :
    IsQuery (.mark (.word "SELECT") :: resultItems ++ .mark (.word "FROM") ::
        .mark (.name table) :: .mark (.word "WHERE") :: conditionItems)
      (.select (results.map (·.1)) (results.map (·.2)) (.table table) condition [] none) := by
  have hlacks (word : String) (hrank : wordRank word = 4) (hwords : word ∉ ["SELECT", "FROM",
      "WHERE", "AS"]) :
      Lacks (.word word) (.mark (.word "SELECT") :: resultItems ++ .mark (.word "FROM") ::
        .mark (.name table) :: .mark (.word "WHERE") :: conditionItems) := by
    simp only [List.mem_cons, List.not_mem_nil, or_false, not_or] at hwords
    obtain ⟨hselect, hfrom, hwhere, has⟩ := hwords
    have hback : Lacks (.word word) conditionItems := hcondition.lacks hrank
    simpa [Ne.symm hselect, Ne.symm hfrom, Ne.symm hwhere, hback] using hresults.words word hrank has
  refine ⟨?_, hlacks "UNION" rfl (by decide), hlacks "LIMIT" rfl (by decide)⟩
  have hfrom : Lacks (.word "FROM") (.mark (.name table) :: .mark (.word "WHERE") ::
      conditionItems) := by
    simpa using hcondition.lacks rfl
  have hsplit := (hresults.words "FROM" rfl (by decide)).split_append
    (.mark (.name table) :: .mark (.word "WHERE") :: conditionItems)
  have hsource : Lacks (.word "WHERE") [.mark (.name table)] := by simp
  have hwhere := hsource.split_append conditionItems
  rw [hfrom.split] at hsplit
  rw [List.singleton_append, (hcondition.lacks rfl).split] at hwhere
  rw [List.cons_append, select?, hsplit]
  simp only [hwhere]
  simp [hresults.read, source?, hcondition.read]

theorem writesQuery_select {f g : Fragment} {cs : List Char} {resultItems : List Item}
    {results : List (Value × String)} {condition : Condition} (table : String)
    (hspells : Spells cs resultItems) (hresults : IsResults resultItems results)
    (hg : WritesCondition g condition)
    (hf : f.sent.toList = "SELECT ".toList ++ (cs ++ (" FROM ".toList ++
      ((Text.sqlIdentifier table).toList ++ (" WHERE ".toList ++ g.sent.toList))))) :
    WritesQuery f
      (.select (results.map (·.1)) (results.map (·.2)) (.table table) condition [] none) := by
  obtain ⟨conditionItems, hconditionSpells, hcondition⟩ := hg
  have hselect : Leads "SELECT ".toList [.mark (.word "SELECT")] :=
    ⟨[.word "SELECT"], fun _ => rfl, fun _ _ => rfl⟩
  have hfrom : IsGlue " FROM " [.mark (.word "FROM")] :=
    ⟨⟨[.word "FROM"], fun _ => rfl, fun _ _ => rfl⟩, rfl⟩
  have hwhere : IsGlue " WHERE " [.mark (.word "WHERE")] :=
    ⟨⟨[.word "WHERE"], fun _ => rfl, fun _ _ => rfl⟩, rfl⟩
  refine ⟨_, ?_, isQuery_select table hresults hcondition⟩
  rw [hf]
  simpa using hselect.append_spells
    (hspells.glue hfrom ((spells_name table).glue hwhere hconditionSpells))

/-- The results that a look-up asks for. -/
theorem isResults_column (column : String) :
    IsResults [.mark (.name column)] [(.column column, "")] := by
  have hsplit (token : Token) (h : Token.name column ≠ token) :
      [Item.mark (.name column)].splitOnP (·.isMark token) = [[.mark (.name column)]] :=
    Lacks.split (by simpa using h)
  refine ⟨?_, by simp⟩
  simp [hsplit, result?, value?, operands?, operand?, chained]

theorem IsQuery.any_select {items : List Item} {query : Query} (h : IsQuery items query) :
    items.any (·.isMark (.word "SELECT")) = true := by
  have hread := h.read
  unfold select? at hread
  split at hread
  · simp [Item.isMark]
  · cases hread

/-- A query in brackets is a value. -/
theorem WritesQuery.scalar {f g : Fragment} {query : Query} (h : WritesQuery f query)
    (hg : g.sent.toList = '(' :: f.sent.toList ++ [')']) : WritesValue g [.scalar query] := by
  obtain ⟨items, hspells, hquery⟩ := h
  have hqueries : queries? items = some [query] := by
    rw [queries?, hquery.union.split]
    simp [hquery.limit.split, hquery.read]
  refine ⟨[.queries [query]], ?_, .single rfl rfl rfl⟩
  rw [hg]
  refine hspells.group ?_
  rw [group?, if_pos hquery.any_select, hqueries, Option.map_some]

/-! ## Ranked queries -/

/-- The items are queries with `UNION ALL` between each two. -/
structure IsUnion (items : List Item) (queries : List Query) : Prop where
  any_select : items.any (·.isMark (.word "SELECT")) = true
  split : ∃ first rest query others, items.splitOnP (·.isMark (.word "UNION")) = first :: rest ∧
    select? [] none first = some query ∧ rest.mapM further? = some others ∧
    queries = query :: others

theorem IsQuery.isUnion {items : List Item} {query : Query} (h : IsQuery items query) :
    IsUnion items [query] where
  any_select := h.any_select
  split := ⟨items, [], query, [], h.union.split, h.read, rfl, rfl⟩

theorem IsQuery.isUnion_append {items rest : List Item} {query : Query} {queries : List Query}
    (h : IsQuery items query) (hrest : IsUnion rest queries) :
    IsUnion (items ++ .mark (.word "UNION") :: .mark (.word "ALL") :: rest)
      (query :: queries) where
  any_select := by rw [List.any_append, h.any_select, Bool.true_or]
  split := by
    obtain ⟨first, others, query', queries', hsplit, hfirst, hothers, rfl⟩ := hrest.split
    refine ⟨items, (.mark (.word "ALL") :: first) :: others, query, query' :: queries', ?_,
      h.read, ?_, rfl⟩
    · rw [h.union.split_append, List.splitOnP_cons_eq_if_modifyHead, hsplit]
      rfl
    · simp [further?, hfirst, hothers]

theorem IsUnion.queries?_eq {items : List Item} {queries : List Query} (h : IsUnion items queries)
    (hlength : 2 ≤ queries.length) : queries? items = some queries := by
  obtain ⟨first, rest, query, others, hsplit, hfirst, hothers, rfl⟩ := h.split
  -- One query alone is read as one that may have an order; here there are two at least.
  have hrest : rest ≠ [] := by
    rintro rfl
    cases hothers
    simp at hlength
  rw [queries?, hsplit]
  split
  · next heq => exact absurd (List.cons.inj heq).2 hrest
  · next heq =>
      obtain ⟨rfl, rfl⟩ := List.cons.inj heq
      simp [hfirst, hothers]
  · next heq => cases heq

/-- The fragment reads as queries with `UNION ALL` between each two. -/
def WritesUnion (f : Fragment) (queries : List Query) : Prop :=
  ∃ items, Spells f.sent.toList items ∧ IsUnion items queries

theorem writesUnion_join {fs : List Fragment} {queries : List Query}
    (h : List.Forall₂ WritesQuery fs queries) (hne : fs ≠ []) :
    WritesUnion (.join " UNION ALL " fs) queries := by
  refine @Fragment.join_rel _ _ WritesUnion _ ?_ ?_ fs queries h hne
  · rintro f query ⟨items, hspells, hquery⟩
    exact ⟨items, hspells, hquery.isUnion⟩
  · rintro f query g queries ⟨items, hspells, hquery⟩ ⟨rest, hspells', hunion⟩
    have hglue : IsGlue " UNION ALL " [.mark (.word "UNION"), .mark (.word "ALL")] :=
      ⟨⟨[.word "UNION", .word "ALL"], fun _ => rfl, fun _ _ => rfl⟩, rfl⟩
    refine ⟨_, ?_, hquery.isUnion_append hunion⟩
    simpa using hspells.glue hglue hspells'

/-- The results of a query that tells its rank. -/
theorem isResults_ranked (column : String) (rank : Nat) :
    IsResults [.mark (.name column), .mark (.word "AS"), .mark (.word "VALUE"), .mark .comma,
        .value (.number rank), .mark (.word "AS"), .mark (.word "PRIORITY")]
      [(.column column, "VALUE"), (.number rank, "PRIORITY")] := by
  refine ⟨?_, ?_⟩
  · rfl
  · intro word hrank hne
    have hvalue : word ≠ "VALUE" ∧ word ≠ "PRIORITY" := by
      constructor <;>
        · rintro rfl
          cases hrank
    simp [Item.isMark, hne.symm, hvalue.1.symm, hvalue.2.symm]

/-- The query for the first value that ranked queries find. -/
def firstRanked (queries : List Query) : Query :=
  .select [.column "VALUE"] [""] (.union queries) (.negation (.isNull (.column "VALUE")))
    [.column "PRIORITY"] (some 1)

theorem writesValue_firstRanked {f g : Fragment} {queries : List Query}
    (h : WritesUnion f queries) (hlength : 2 ≤ queries.length)
    (hg : g.sent.toList = "(SELECT value FROM (".toList ++ f.sent.toList ++
      ") WHERE value IS NOT NULL ORDER BY priority LIMIT 1)".toList) :
    WritesValue g [.scalar (firstRanked queries)] := by
  obtain ⟨items, hspells, hunion⟩ := h
  have hgroup : group? items = some (.queries queries) := by
    rw [group?, if_pos hunion.any_select, hunion.queries?_eq hlength, Option.map_some]
  have hfront : Leads "SELECT value FROM ".toList
      [.mark (.word "SELECT"), .mark (.word "VALUE"), .mark (.word "FROM")] :=
    ⟨[.word "SELECT", .word "VALUE", .word "FROM"], fun _ => rfl, fun _ _ => rfl⟩
  have hback : Spells " WHERE value IS NOT NULL ORDER BY priority LIMIT 1".toList
      [.mark (.word "WHERE"), .mark (.word "VALUE"), .mark (.word "IS"), .mark (.word "NOT"),
        .mark (.word "NULL"), .mark (.word "ORDER"), .mark (.word "BY"),
        .mark (.word "PRIORITY"), .mark (.word "LIMIT"), .value (.number 1)] :=
    ⟨[.word "WHERE", .word "VALUE", .word "IS", .word "NOT", .word "NULL", .word "ORDER",
      .word "BY", .word "PRIORITY", .word "LIMIT", .number 1],
      fun _ => ⟨_, rfl, rfl⟩, fun _ _ => rfl⟩
  -- The union in brackets is one item of the query around it.
  have hinside := hfront.append_spells ((hspells.group hgroup).append hback rfl)
  have houter : group? [.mark (.word "SELECT"), .mark (.word "VALUE"), .mark (.word "FROM"),
      .queries queries, .mark (.word "WHERE"), .mark (.word "VALUE"), .mark (.word "IS"),
      .mark (.word "NOT"), .mark (.word "NULL"), .mark (.word "ORDER"), .mark (.word "BY"),
      .mark (.word "PRIORITY"), .mark (.word "LIMIT"), .value (.number 1)] =
        some (.queries [firstRanked queries]) := rfl
  refine ⟨[.queries [firstRanked queries]], ?_, .single rfl rfl rfl⟩
  rw [hg]
  simpa using hinside.group houter

end ChangeTracking.Sql.Engine
