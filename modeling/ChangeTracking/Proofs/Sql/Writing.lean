import ChangeTracking.Proofs.Sql.Spelling

/-!
# Written values and conditions

A fragment writes a value when its text reads as that value, in whatever place a value may
stand.  Each way in which the renderers build a fragment from others keeps this, so what a
rendered text reads as is known from its parts.
-/

namespace ChangeTracking.Sql.Engine

open Plan (RowRole)

/-! ## Tokens that items lack -/

/-- The token stands nowhere among the items. -/
def Lacks (token : Token) (items : List Item) : Prop :=
  ∀ item ∈ items, item.isMark token = false

section Lacks

variable {token : Token} {items rest : List Item}

@[simp] theorem lacks_nil : Lacks token [] := by
  simp [Lacks]

@[simp] theorem lacks_cons {item : Item} :
    Lacks token (item :: items) ↔ item.isMark token = false ∧ Lacks token items := by
  simp [Lacks]

@[simp] theorem lacks_append : Lacks token (items ++ rest) ↔ Lacks token items ∧ Lacks token rest := by
  simp [Lacks, or_imp, forall_and]

@[simp] theorem isMark_mark (token other : Token) : (Item.mark other).isMark token = (other == token) :=
  rfl

/-- Where no rank is that of the token, the token is not there. -/
theorem lacks_of_rank (h : ∀ item ∈ items, item.rank ≠ token.rank) : Lacks token items := by
  intro item hitem
  have hrank := h item hitem
  cases item with
  | mark other =>
      rw [isMark_mark, beq_eq_false_iff_ne]
      rintro rfl
      exact hrank rfl
  | _ => rfl

theorem Lacks.split (h : Lacks token items) : items.splitOnP (·.isMark token) = [items] :=
  List.splitOnP_eq_singleton h

theorem Lacks.split_append (h : Lacks token items) (rest : List Item) :
    (items ++ .mark token :: rest).splitOnP (·.isMark token) =
      items :: rest.splitOnP (·.isMark token) :=
  List.splitOnP_append_cons_of_forall_mem h _ (by simp) rest

end Lacks

/-! ## Values -/

/-- The items are a chain of the values and nothing else. -/
structure IsChain (items : List Item) (values : List Value) : Prop where
  operands : operands? items = some values
  plain : ∀ item ∈ items, item.rank = 0

/-- The fragment reads as a chain of the values. -/
def WritesValue (f : Fragment) (values : List Value) : Prop :=
  ∃ items, Spells f.sent.toList items ∧ IsChain items values

namespace IsChain

variable {items items' : List Item} {values values' : List Value}

theorem append (h : IsChain items values) (h' : IsChain items' values') :
    IsChain (items ++ .mark .bars :: items') (values ++ values') where
  operands := by
    rw [operands?, List.splitOnP_append_cons _ _ rfl, List.mapM_append]
    have hleft := h.operands
    have hright := h'.operands
    rw [operands?] at hleft hright
    simp [hleft, hright]
  plain := by
    intro item hitem
    rcases List.mem_append.mp hitem with hitem | hitem
    · exact h.plain item hitem
    rcases List.mem_cons.mp hitem with rfl | hitem
    · rfl
    · exact h'.plain item hitem

theorem single {item : Item} {value : Value} (h : operand? [item] = some value)
    (hrank : item.rank = 0) (hbars : item.isMark .bars = false) : IsChain [item] [value] where
  operands := by
    have hlacks : Lacks .bars [item] := by simpa using hbars
    rw [operands?, hlacks.split]
    simp [h]
  plain := by simpa using hrank

theorem value?_eq (h : IsChain items values) : value? items = some (chained values) := by
  rw [value?, h.operands, Option.map_some]

/-- A chain has no token of a higher rank. -/
theorem lacks (h : IsChain items values) {token : Token} (htoken : token.rank ≠ 0) :
    Lacks token items := by
  apply lacks_of_rank
  intro item hitem
  rw [h.plain item hitem]
  exact htoken.symm

theorem values?_eq (h : IsChain items values) : values? items = some [chained values] := by
  have hcomma : Lacks .comma items := h.lacks (by decide)
  rw [values?, hcomma.split]
  simp [h.value?_eq]

theorem values?_append (h : IsChain items values) {rest : List Item} {others : List Value}
    (hrest : values? rest = some others) :
    values? (items ++ .mark .comma :: rest) = some (chained values :: others) := by
  have hcomma : Lacks .comma items := h.lacks (by decide)
  rw [values?] at hrest
  rw [values?, hcomma.split_append]
  simp [h.value?_eq, hrest]

end IsChain

/-- A value that is read already is a chain. -/
theorem isChain_value (value : Value) : IsChain [.value value] [value] := .single rfl rfl rfl

/-! ### Leaves -/

theorem writesValue_null : WritesValue (.ofText "NULL") [.null] := by
  refine ⟨[.mark (.word "NULL")], ⟨[.word "NULL"], fun before => ⟨_, rfl, rfl⟩, fun _ _ => rfl⟩, ?_⟩
  exact .single rfl (by decide) rfl

theorem spells_text (value : String) :
    Spells (Text.sqlLiteral value).toList [.value (.text value)] :=
  ⟨[.text value], reads_sqlLiteral value, fun _ _ => rfl⟩

theorem spells_number (value : Nat) : Spells (toString value).toList [.value (.number value)] :=
  ⟨[.number value], reads_number value, fun _ _ => rfl⟩

theorem spells_name (name : String) :
    Spells (Text.sqlIdentifier name).toList [.mark (.name name)] :=
  ⟨[.name name], reads_sqlIdentifier name, fun _ _ => rfl⟩

theorem writesValue_literal (value : String) :
    WritesValue (.ofText (Text.sqlLiteral value)) [.text value] := by
  refine ⟨[.value (.text value)], ?_, isChain_value _⟩
  rw [Fragment.toList_sent_ofText]
  exact spells_text value

theorem writesValue_rowColumn (quoted : Bool) {row : RowRole} (column : String)
    (hrow : row = .old ∨ row = .new) :
    WritesValue ((Dialect.sqlite quoted).rowColumn row column)
      [.rowColumn (if row = .old then "OLD" else "NEW") column] := by
  have hcolumn (word : String) (hword : operand? [.mark (.word word), .mark .dot,
      .mark (.name column)] = some (.rowColumn word column)) (hrank : wordRank word = 0) :
      IsChain [.mark (.word word), .mark .dot, .mark (.name column)]
        [.rowColumn word column] := by
    refine ⟨?_, by simpa [Item.rank, Token.rank] using hrank⟩
    have hbars : Lacks .bars [.mark (.word word), .mark .dot, .mark (.name column)] := by simp
    rw [operands?, hbars.split]
    simp [hword]
  rcases hrow with rfl | rfl
  · have hold : Leads "old.".toList [.mark (.word "OLD"), .mark .dot] :=
      ⟨[.word "OLD", .dot], fun _ => rfl, fun _ _ => rfl⟩
    refine ⟨_, ?_, hcolumn "OLD" rfl (by decide)⟩
    simpa [Dialect.sqlite] using hold.append_spells (spells_name column)
  · have hnew : Leads "new.".toList [.mark (.word "NEW"), .mark .dot] :=
      ⟨[.word "NEW", .dot], fun _ => rfl, fun _ _ => rfl⟩
    refine ⟨_, ?_, hcolumn "NEW" rfl (by decide)⟩
    simpa [Dialect.sqlite] using hnew.append_spells (spells_name column)

/-! ### Chains and calls -/

theorem WritesValue.append {f g : Fragment} {values values' : List Value}
    (h : WritesValue f values) (h' : WritesValue g values') :
    WritesValue (f ++ .ofText " || " ++ g) (values ++ values') := by
  obtain ⟨items, hspells, hchain⟩ := h
  obtain ⟨items', hspells', hchain'⟩ := h'
  have hbars : IsGlue " || " [.mark .bars] :=
    ⟨⟨[.bars], fun _ => rfl, fun _ _ => rfl⟩, rfl⟩
  refine ⟨_, ?_, hchain.append hchain'⟩
  simpa using hspells.glue hbars hspells'

theorem writesValue_concat {fs : List Fragment} {valuess : List (List Value)}
    (h : List.Forall₂ WritesValue fs valuess) (hne : fs ≠ []) :
    WritesValue (Dialect.concat fs) valuess.flatten := by
  refine @Fragment.join_rel _ _ (fun f valuess => WritesValue f valuess.flatten) _ ?_ ?_ fs
    valuess h hne
  · intro f values hf
    simpa using hf
  · intro f values g valuess hf hg
    simpa using hf.append hg

/-- The fragment reads as values between commas. -/
def WritesArguments (f : Fragment) (values : List Value) : Prop :=
  ∃ items, Spells f.sent.toList items ∧ values? items = some values

theorem isGlue_comma : IsGlue ", " [.mark .comma] :=
  ⟨⟨[.comma], fun _ => rfl, fun _ _ => rfl⟩, rfl⟩

theorem WritesValue.arguments {f : Fragment} {values : List Value} (h : WritesValue f values) :
    WritesArguments f [chained values] := by
  obtain ⟨items, hspells, hchain⟩ := h
  exact ⟨items, hspells, hchain.values?_eq⟩

theorem WritesValue.arguments_append {f g : Fragment} {values others : List Value}
    (h : WritesValue f values) (hg : WritesArguments g others) :
    WritesArguments (f ++ .ofText ", " ++ g) (chained values :: others) := by
  obtain ⟨items, hspells, hchain⟩ := h
  obtain ⟨items', hspells', hvalues⟩ := hg
  refine ⟨_, ?_, hchain.values?_append hvalues⟩
  simpa using hspells.glue isGlue_comma hspells'

theorem writesArguments_join {fs : List Fragment} {valuess : List (List Value)}
    (h : List.Forall₂ WritesValue fs valuess) (hne : fs ≠ []) :
    WritesArguments (.join ", " fs) (valuess.map chained) := by
  refine @Fragment.join_rel _ _ (fun f valuess => WritesArguments f (valuess.map chained)) _
    ?_ ?_ fs valuess h hne
  · intro f values hf
    exact hf.arguments
  · intro f values g valuess hf hg
    exact hf.arguments_append hg

/-- The name in front of a bracket calls the function. -/
structure Calls (name word : String) (function : Function) : Prop where
  opens : Opens (name ++ "(").toList [.word word, .opening]
  read : ∀ frames, Reader.word? word frames = some ⟨some function, frames⟩

theorem call?_of_values {function : Function} {items : List Item} {values : List Value}
    (hvalues : values? items = some values) (htakes : function.takes values.length = true)
    (hcast : function ≠ .castToText) : call? function items = some (.call function values) := by
  unfold call?
  split
  · exact absurd rfl hcast
  · exact absurd rfl hcast
  · simp [hvalues, htakes]

theorem WritesArguments.call {name word : String} {function : Function} {f g : Fragment}
    {values : List Value} (h : WritesArguments f values) (hcalls : Calls name word function)
    (htakes : function.takes values.length = true) (hcast : function ≠ .castToText)
    (hg : g.sent.toList = name.toList ++ '(' :: f.sent.toList ++ [')']) :
    WritesValue g [.call function values] := by
  obtain ⟨items, hspells, hvalues⟩ := h
  refine ⟨[.value (.call function values)], ?_, isChain_value _⟩
  have hcall := hspells.call hcalls.opens hcalls.read (call?_of_values hvalues htakes hcast)
  rw [hg]
  simpa using hcall

theorem writesValue_coalesce {fs : List Fragment} {valuess : List (List Value)}
    (h : List.Forall₂ WritesValue fs valuess) (hlength : 2 ≤ fs.length) :
    WritesValue (Dialect.coalesce fs) [.call .coalesce (valuess.map chained)] := by
  have hcalls : Calls "COALESCE" "COALESCE" .coalesce := ⟨fun _ => rfl, fun _ => rfl⟩
  have hne : fs ≠ [] := List.ne_nil_of_length_pos (by omega)
  refine (writesArguments_join h hne).call hcalls ?_ (by decide) (by simp [Dialect.coalesce])
  rw [List.length_map, ← h.length_eq]
  exact decide_eq_true hlength

theorem writesValue_nullIfEmpty {f : Fragment} {values : List Value} (h : WritesValue f values) :
    WritesValue (Dialect.nullIfEmpty f) [.call .nullIf [chained values, .text ""]] := by
  have hcalls : Calls "NULLIF" "NULLIF" .nullIf := ⟨fun _ => rfl, fun _ => rfl⟩
  have hempty : WritesArguments (.ofText (Text.sqlLiteral "")) [.text ""] :=
    (writesValue_literal "").arguments
  refine (h.arguments_append hempty).call hcalls rfl (by decide) ?_
  simp [Dialect.nullIfEmpty, Text.sqlLiteral, Text.doubled]

theorem writesValue_length {f : Fragment} {values : List Value} (h : WritesValue f values) :
    WritesValue (Dialect.length f) [.call .length [chained values]] := by
  have hcalls : Calls "LENGTH" "LENGTH" .length := ⟨fun _ => rfl, fun _ => rfl⟩
  exact h.arguments.call hcalls rfl (by decide) (by simp [Dialect.length])

/-- The arguments that select the characters of a text. -/
def bounds (start : Nat) (count : Option Nat) : List Value :=
  .number start :: (count.map Value.number).toList

theorem writesValue_number (value : Nat) :
    WritesValue (.ofText (toString value)) [.number value] := by
  refine ⟨[.value (.number value)], ?_, isChain_value _⟩
  rw [Fragment.toList_sent_ofText]
  exact spells_number value

theorem writesValue_substring (quoted : Bool) {f : Fragment} {values : List Value}
    (h : WritesValue f values) (start : Nat) (count : Option Nat) :
    WritesValue ((Dialect.sqlite quoted).substring f start count)
      [.call .substring (chained values :: bounds start count)] := by
  have hcalls : Calls "SUBSTR" "SUBSTR" .substring := ⟨fun _ => rfl, fun _ => rfl⟩
  cases count with
  | none =>
      have harguments := h.arguments_append (writesValue_number start).arguments
      refine harguments.call hcalls rfl (by decide) ?_
      simp [Dialect.substring, Dialect.sqlite]
  | some count =>
      have hbounds := (writesValue_number start).arguments_append (writesValue_number count).arguments
      refine (h.arguments_append hbounds).call hcalls rfl (by decide) ?_
      simp [Dialect.substring, Dialect.sqlite]

theorem writesValue_sessionValue (quoted : Bool) (key : String) :
    WritesValue ((Dialect.sqlite quoted).sessionValue key) [.call .session [.text key]] := by
  have hcalls : Calls "session_context" "SESSION_CONTEXT" .session :=
    ⟨fun _ => rfl, fun _ => rfl⟩
  refine (writesValue_literal key).arguments.call hcalls rfl (by decide) ?_
  simp [Dialect.sqlite]

/-- Values that are times already stand as they are; all others are cast. -/
theorem writesValue_textCast (quoted : Bool) (valueClass : Tracking.ValueClass) {f : Fragment}
    {values : List Value} (h : WritesValue f values) :
    WritesValue ((Dialect.sqlite quoted).textCast valueClass f)
      (if valueClass.isTemporal then values else [.call .castToText [chained values]]) := by
  by_cases htemporal : valueClass.isTemporal = true
  · simpa [Dialect.sqlite, htemporal] using h
  · obtain ⟨items, hspells, hchain⟩ := h
    have hcalls : Calls "CAST" "CAST" .castToText := ⟨fun _ => rfl, fun _ => rfl⟩
    have hinside : Spells (f.sent.toList ++ " AS TEXT".toList)
        (items ++ [.mark (.word "AS"), .mark (.word "TEXT")]) :=
      hspells.append ⟨[.word "AS", .word "TEXT"], fun _ => ⟨_, rfl, rfl⟩, fun _ _ => rfl⟩ rfl
    have hcall : call? .castToText (items ++ [.mark (.word "AS"), .mark (.word "TEXT")]) =
        some (.call .castToText [chained values]) := by
      have hitems : Lacks (.word "AS") items := hchain.lacks (by decide)
      have htext : Lacks (.word "AS") [.mark (.word "TEXT")] := by simp
      have hsplit := hitems.split_append [.mark (.word "TEXT")]
      rw [htext.split] at hsplit
      simp [call?, hsplit, hchain.value?_eq]
    refine ⟨[.value (.call .castToText [chained values])], ?_, ?_⟩
    · simpa [Dialect.sqlite, htemporal] using hinside.call hcalls.opens hcalls.read hcall
    · simpa [htemporal] using isChain_value (.call .castToText [chained values])

/-! ## Conditions -/

/-- The items are a condition without connectives. -/
structure IsTest (items : List Item) (condition : Condition) : Prop where
  read : plainCondition? items = some condition
  bounded : ∀ item ∈ items, item.rank ≤ 1
  decides : ∃ item ∈ items, 1 ≤ item.rank

/-- The items are a condition. -/
structure IsCondition (items : List Item) (condition : Condition) : Prop where
  read : condition? items = some condition
  bounded : ∀ item ∈ items, item.rank ≤ 3
  decides : ∃ item ∈ items, 1 ≤ item.rank

/-- The fragment reads as a condition without connectives. -/
def WritesTest (f : Fragment) (condition : Condition) : Prop :=
  ∃ items, Spells f.sent.toList items ∧ IsTest items condition

/-- The fragment reads as a condition. -/
def WritesCondition (f : Fragment) (condition : Condition) : Prop :=
  ∃ items, Spells f.sent.toList items ∧ IsCondition items condition

@[simp] theorem joined_singleton (connective : List Condition → Condition) (condition : Condition) :
    joined connective [condition] = condition := rfl

/-- No item has a rank above the others. -/
theorem rank_beq_eq_false {items : List Item} {bound rank : Nat}
    (h : ∀ item ∈ items, item.rank ≤ bound) (hrank : bound < rank) :
    ∀ item ∈ items, (item.rank == rank) = false := by
  intro item hitem
  have hbound := h item hitem
  rw [beq_eq_false_iff_ne]
  omega

theorem IsTest.conjunction?_eq {items : List Item} {condition : Condition}
    (h : IsTest items condition) : conjunction? items = some condition := by
  rw [conjunction?, List.splitOnP_eq_singleton (rank_beq_eq_false h.bounded (by omega))]
  simp [h.read]

theorem IsTest.isCondition {items : List Item} {condition : Condition}
    (h : IsTest items condition) : IsCondition items condition where
  read := by
    rw [condition?, List.splitOnP_eq_singleton (rank_beq_eq_false h.bounded (by omega))]
    simp [h.conjunction?_eq]
  bounded := fun item hitem => Nat.le_trans (h.bounded item hitem) (by omega)
  decides := h.decides

theorem WritesTest.condition {f : Fragment} {condition : Condition} (h : WritesTest f condition) :
    WritesCondition f condition := by
  obtain ⟨items, hspells, htest⟩ := h
  exact ⟨items, hspells, htest.isCondition⟩

/-! ### Connectives -/

/-- The fragment reads as conditions with a connective of a rank between each two. -/
def WritesJoined (rank : Nat) (read : List Item → Option Condition) (f : Fragment)
    (conditions : List Condition) : Prop :=
  ∃ items, Spells f.sent.toList items ∧
    (items.splitOnP (·.rank == rank)).mapM read = some conditions ∧
    (∀ item ∈ items, item.rank ≤ rank) ∧ ∃ item ∈ items, 1 ≤ item.rank

theorem writesJoined_join (rank : Nat) {separator : String} {mark : Item}
    {read : List Item → Option Condition} (hrank : 1 < rank) (hglue : IsGlue separator [mark])
    (hmark : mark.rank = rank) (hread : ∀ items condition, IsTest items condition →
      read items = some condition)
    {fs : List Fragment} {conditions : List Condition}
    (h : List.Forall₂ WritesTest fs conditions) (hne : fs ≠ []) :
    WritesJoined rank read (.join separator fs) conditions := by
  refine @Fragment.join_rel _ _ (WritesJoined rank read) _ ?_ ?_ fs conditions h hne
  -- No operand holds a connective of this rank, so the text splits between the operands alone.
  · rintro f condition ⟨items, hspells, htest⟩
    refine ⟨items, hspells, ?_, fun item hitem => ?_, htest.decides⟩
    · rw [List.splitOnP_eq_singleton (rank_beq_eq_false htest.bounded hrank)]
      simp [hread items condition htest]
    · exact Nat.le_trans (htest.bounded item hitem) (by omega)
  · rintro f condition g conditions ⟨items, hspells, htest⟩ ⟨rest, hspells', hread', hbounded, -⟩
    refine ⟨items ++ mark :: rest, ?_, ?_, ?_, ?_⟩
    · simpa using hspells.glue hglue hspells'
    · rw [List.splitOnP_append_cons_of_forall_mem (rank_beq_eq_false htest.bounded hrank) _
        (by simpa using hmark)]
      simp [hread items condition htest, hread']
    · intro item hitem
      rcases List.mem_append.mp hitem with hitem | hitem
      · exact Nat.le_trans (htest.bounded item hitem) (by omega)
      rcases List.mem_cons.mp hitem with rfl | hitem
      · exact Nat.le_of_eq hmark
      · exact hbounded item hitem
    · obtain ⟨item, hitem, hone⟩ := htest.decides
      exact ⟨item, List.mem_append_left _ hitem, hone⟩

theorem writesCondition_conjunction {fs : List Fragment} {conditions : List Condition}
    (h : List.Forall₂ WritesTest fs conditions) (hne : fs ≠ []) :
    WritesCondition (.join " AND " fs) (joined .conjunction conditions) := by
  have hand : IsGlue " AND " [.mark (.word "AND")] :=
    ⟨⟨[.word "AND"], fun _ => rfl, fun _ _ => rfl⟩, rfl⟩
  obtain ⟨items, hspells, hread, hbounded, hdecides⟩ :=
    writesJoined_join 2 (by decide) hand rfl (fun _ _ htest => htest.read) h hne
  have hbound : ∀ item ∈ items, item.rank ≤ 3 := fun item hitem =>
    Nat.le_trans (hbounded item hitem) (by omega)
  refine ⟨items, hspells, ?_, hbound, hdecides⟩
  rw [condition?, List.splitOnP_eq_singleton (rank_beq_eq_false hbounded (by omega))]
  simp [conjunction?, hread]

theorem writesCondition_disjunction {fs : List Fragment} {conditions : List Condition}
    (h : List.Forall₂ WritesTest fs conditions) (hne : fs ≠ []) :
    WritesCondition (.join " OR " fs) (joined .disjunction conditions) := by
  have hor : IsGlue " OR " [.mark (.word "OR")] :=
    ⟨⟨[.word "OR"], fun _ => rfl, fun _ _ => rfl⟩, rfl⟩
  obtain ⟨items, hspells, hread, hbounded, hdecides⟩ :=
    writesJoined_join 3 (by decide) hor rfl (fun _ _ htest => htest.conjunction?_eq) h hne
  refine ⟨items, hspells, ?_, hbounded, hdecides⟩
  rw [condition?, hread, Option.map_some]

/-! ### Brackets and negation -/

/-- A condition has no token that ends a clause. -/
theorem IsCondition.lacks {items : List Item} {condition : Condition}
    (h : IsCondition items condition) {token : Token} (htoken : token.rank = 4) :
    Lacks token items := by
  apply lacks_of_rank
  intro item hitem
  have hbound := h.bounded item hitem
  omega

theorem IsCondition.group?_eq {items : List Item} {condition : Condition}
    (h : IsCondition items condition) : group? items = some (.condition condition) := by
  have hclause (token : Token) (htoken : token.rank = 4) :
      items.any (·.isMark token) = false := by
    have hlacks := h.lacks htoken
    simpa [Lacks] using hlacks
  have hdecides : items.any (1 ≤ ·.rank) = true := by
    simpa using h.decides
  simp [group?, hclause (.word "SELECT") (by decide), hclause .comma rfl, hdecides, h.read]

theorem WritesCondition.parens {f : Fragment} {condition : Condition}
    (h : WritesCondition f condition) :
    WritesTest (.ofText "(" ++ f ++ .ofText ")") condition := by
  obtain ⟨items, hspells, hcondition⟩ := h
  refine ⟨[.condition condition], ?_, ⟨rfl, by simp [Item.rank], by simp [Item.rank]⟩⟩
  simpa using hspells.group hcondition.group?_eq

theorem WritesCondition.negation {f : Fragment} {condition : Condition}
    (h : WritesCondition f condition) :
    WritesTest (.ofText "NOT (" ++ f ++ .ofText ")") (.negation condition) := by
  obtain ⟨items, hspells, htest⟩ := h.parens
  have hnot : Leads "NOT ".toList [.mark (.word "NOT")] :=
    ⟨[.word "NOT"], fun _ => rfl, fun _ _ => rfl⟩
  refine ⟨.mark (.word "NOT") :: items, ?_, ?_, ?_, ?_⟩
  · simpa using hnot.append_spells hspells
  · rw [plainCondition?, htest.read, Option.map_some]
  · intro item hitem
    rcases List.mem_cons.mp hitem with rfl | hitem
    · decide
    · exact htest.bounded item hitem
  · exact ⟨_, List.mem_cons_self, by decide⟩

/-! ### Tests of values -/

theorem IsChain.ne_nil {items : List Item} {values : List Value} (h : IsChain items values) :
    items ≠ [] := by
  rintro rfl
  cases h.operands

/-- A test that starts with a value is a comparison of it. -/
theorem IsChain.plainCondition?_append {items : List Item} {values : List Value}
    (h : IsChain items values) (rest : List Item) :
    plainCondition? (items ++ rest) = comparison? (items ++ rest) := by
  cases items with
  | nil => exact absurd rfl h.ne_nil
  | cons item items =>
      -- `NOT` and bracketed conditions have rank one, and no item of a chain has.
      have hrank : item.rank = 0 := h.plain item List.mem_cons_self
      unfold plainCondition?
      split
      · next heq =>
          obtain ⟨rfl, -⟩ := List.cons.inj heq
          cases hrank
      · next heq =>
          obtain ⟨rfl, -⟩ := List.cons.inj heq
          cases hrank
      · rfl

/-- A comparison starts with the value in front of the first token that compares. -/
theorem IsChain.comparison?_append {items : List Item} {values : List Value}
    (h : IsChain items values) {token : Token} (htoken : token.rank = 1) (rest : List Item) :
    comparison? (items ++ .mark token :: rest) = asked? (chained values) (.mark token :: rest) := by
  -- The value goes as far as the items of rank zero do.
  have hitems : ∀ item ∈ items, (item.rank == 0) = true := by simpa using h.plain
  have hstop : (Item.mark token).rank ≠ 0 := by simp [Item.rank, htoken]
  rw [comparison?, List.takeWhile_append_of_pos hitems, List.takeWhile_cons_of_neg (by simpa),
    List.dropWhile_append_of_pos hitems, List.dropWhile_cons_of_neg (by simpa), List.append_nil,
    h.value?_eq, Option.bind_some]

/-- Whatever is asked of a value is a test. -/
theorem IsChain.isTest {items : List Item} {values : List Value} (h : IsChain items values)
    {token : Token} {rest : List Item} {condition : Condition} (htoken : token.rank = 1)
    (hbounded : ∀ item ∈ rest, item.rank ≤ 1)
    (hread : asked? (chained values) (.mark token :: rest) = some condition) :
    IsTest (items ++ .mark token :: rest) condition where
  read := by rw [h.plainCondition?_append, h.comparison?_append htoken, hread]
  bounded := by
    intro item hitem
    rcases List.mem_append.mp hitem with hitem | hitem
    · rw [h.plain item hitem]
      omega
    rcases List.mem_cons.mp hitem with rfl | hitem
    · exact Nat.le_of_eq htoken
    · exact hbounded item hitem
  decides := ⟨.mark token, by simp, Nat.le_of_eq htoken.symm⟩

theorem WritesValue.test {f g : Fragment} {values : List Value} {cs : List Char} {token : Token}
    {rest : List Item} {condition : Condition} (h : WritesValue f values)
    (hrest : Spells cs (.mark token :: rest)) (hcs : startsDelimited cs = true)
    (htoken : token.rank = 1) (hbounded : ∀ item ∈ rest, item.rank ≤ 1)
    (hread : asked? (chained values) (.mark token :: rest) = some condition)
    (hg : g.sent.toList = f.sent.toList ++ cs) : WritesTest g condition := by
  obtain ⟨items, hspells, hchain⟩ := h
  refine ⟨items ++ .mark token :: rest, ?_, hchain.isTest htoken hbounded hread⟩
  rw [hg]
  exact hspells.append hrest hcs

theorem WritesValue.isNull {f : Fragment} {values : List Value} (h : WritesValue f values) :
    WritesTest (f ++ .ofText " IS NULL") (.isNull (chained values)) := by
  have hrest : Spells " IS NULL".toList [.mark (.word "IS"), .mark (.word "NULL")] :=
    ⟨[.word "IS", .word "NULL"], fun _ => ⟨_, rfl, rfl⟩, fun _ _ => rfl⟩
  exact h.test hrest rfl rfl (by decide) rfl (by simp)

theorem WritesValue.isNotNull {f : Fragment} {values : List Value} (h : WritesValue f values) :
    WritesTest (f ++ .ofText " IS NOT NULL") (.negation (.isNull (chained values))) := by
  have hrest : Spells " IS NOT NULL".toList
      [.mark (.word "IS"), .mark (.word "NOT"), .mark (.word "NULL")] :=
    ⟨[.word "IS", .word "NOT", .word "NULL"], fun _ => ⟨_, rfl, rfl⟩, fun _ _ => rfl⟩
  exact h.test hrest rfl rfl (by decide) rfl (by simp)

/-- A value compared to another one. -/
theorem WritesValue.compare {f f' g : Fragment} {values values' : List Value} {operator : String}
    {token : Token} {comparison : Comparison} (h : WritesValue f values)
    (h' : WritesValue f' values') (hglue : IsGlue operator [.mark token])
    (htoken : token.comparison? = some comparison)
    (hg : g.sent.toList = f.sent.toList ++ (operator.toList ++ f'.sent.toList)) :
    WritesTest g (.compare comparison (chained values) (chained values')) := by
  obtain ⟨items', hspells', hchain'⟩ := h'
  -- All comparisons bind alike, and weaker than what a chain is made of.
  have hrank : token.rank = 1 := by
    cases token with
    | equals => rfl
    | differs => rfl
    | exceeds => rfl
    | _ => cases htoken
  refine h.test (hglue.leads.append_spells hspells') (startsDelimited_append hglue.delimited _)
    hrank ?_ ?_ hg
  · intro item hitem
    rw [hchain'.plain item hitem]
    omega
  · cases token with
    | equals => simp_all [asked?, hchain'.value?_eq]
    | differs => simp_all [asked?, hchain'.value?_eq]
    | exceeds => simp_all [asked?, hchain'.value?_eq]
    | _ => cases htoken

theorem isGlue_equals : IsGlue " = " [.mark .equals] :=
  ⟨⟨[.equals], fun _ => rfl, fun _ _ => rfl⟩, rfl⟩

theorem WritesValue.equal {f g : Fragment} {values values' : List Value}
    (h : WritesValue f values) (h' : WritesValue g values') :
    WritesTest (f ++ .ofText " = " ++ g) (.compare .equal (chained values) (chained values')) :=
  h.compare h' isGlue_equals rfl (by simp)

theorem WritesValue.unequal {f g : Fragment} {values values' : List Value}
    (h : WritesValue f values) (h' : WritesValue g values') :
    WritesTest (f ++ .ofText " <> " ++ g) (.compare .unequal (chained values) (chained values')) := by
  have hglue : IsGlue " <> " [.mark .differs] :=
    ⟨⟨[.differs], fun _ => rfl, fun _ _ => rfl⟩, rfl⟩
  exact h.compare h' hglue rfl (by simp)

theorem WritesValue.longerThan {f : Fragment} {values : List Value} (h : WritesValue f values)
    (limit : Nat) :
    WritesTest (Dialect.length f ++ .ofText (" > " ++ toString limit))
      (.compare .greater (.call .length [chained values]) (.number limit)) := by
  have hglue : IsGlue " > " [.mark .exceeds] :=
    ⟨⟨[.exceeds], fun _ => rfl, fun _ _ => rfl⟩, rfl⟩
  exact (writesValue_length h).compare (writesValue_number limit) hglue rfl (by simp)

/-- The text that stands for a truth value. -/
theorem writesTest_constant (value : Bool) :
    WritesTest (.ofText (if value then "1 = 1" else "1 = 0"))
      (.compare .equal (.number 1) (.number (if value then 1 else 0))) := by
  refine (writesValue_number 1).compare (writesValue_number (if value then 1 else 0))
    isGlue_equals rfl ?_
  cases value <;> decide

/-! ## Whole texts -/

/-- A text that reads as items is read whole. -/
theorem items?_of_spells {sql : String} {items : List Item} (h : Spells sql.toList items) :
    Reader.items? sql = some items := by
  obtain ⟨ts, hreads, hparses⟩ := h
  have hrun := hparses ⟨.plain, []⟩ []
  simp [Reader.items?, hreads.tokens_eq, hrun]

theorem readValue_sent {f : Fragment} {values : List Value} (h : WritesValue f values) :
    readValue f.sent = some (chained values) := by
  obtain ⟨items, hspells, hchain⟩ := h
  rw [readValue, items?_of_spells hspells, Option.bind_some, hchain.value?_eq]

theorem readCondition_sent {f : Fragment} {condition : Condition} (h : WritesTest f condition) :
    readCondition f.sent = some condition := by
  obtain ⟨items, hspells, htest⟩ := h
  rw [readCondition, items?_of_spells hspells, Option.bind_some, htest.isCondition.read]

end ChangeTracking.Sql.Engine
