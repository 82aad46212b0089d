import ChangeTracking.Proofs.Text.JavaLiterals
import ChangeTracking.Script.H2

/-!
# Prepared statements of H2 triggers

The class of an H2 trigger prepares its statements from literals.  The main statement is that every
literal is read as its text, and that the literals stand in the source as they were written: the
source is indented line by line, and no literal goes over the end of a line.  So the statements
that are prepared are those that were rendered, unless one has a carriage return.
-/

namespace ChangeTracking

namespace Text

/-! ## Parts of indented texts -/

/-- The first text stands in the second one. -/
def IsWithin (part text : String) : Prop := part.toList <:+: text.toList

/-- A text that stays within its line, and of which nothing belongs to the end of the line. -/
structure IsUnbroken (part : List Char) : Prop where
  feed : '\n' ∉ part
  last : ∃ front c, part = front ++ [c] ∧ c ≠ '\r'

variable {part : List Char} {p s t : String}

theorem IsWithin.left (h : IsWithin p s) (t : String) : IsWithin p (s ++ t) := by
  rw [IsWithin, String.toList_append]
  exact h.trans (List.prefix_append _ _).isInfix

theorem IsWithin.right (h : IsWithin p t) (s : String) : IsWithin p (s ++ t) := by
  rw [IsWithin, String.toList_append]
  exact h.trans (List.suffix_append _ _).isInfix

theorem IsWithin.exists_eq (h : IsWithin p s) : ∃ before after, s = before ++ (p ++ after) := by
  obtain ⟨before, after, heq⟩ := h
  refine ⟨String.ofList before, String.ofList after, ?_⟩
  rw [← String.toList_inj, ← heq]
  simp

theorem isWithin_intercalate {separator : String} {texts : List String} (ht : t ∈ texts)
    (h : IsWithin p t) : IsWithin p (separator.intercalate texts) := by
  induction texts with
  | nil => cases ht
  | cons text texts ih =>
      cases texts with
      | nil =>
          rw [List.mem_singleton.mp ht] at h
          rwa [String.intercalate_singleton]
      | cons next rest =>
          rw [String.intercalate_cons_cons]
          rcases List.mem_cons.mp ht with rfl | ht
          · exact (h.left _).left _
          · exact (ih ht).right _

/-- A part without the separator stands on one of its sides. -/
theorem infix_or_infix_of_append_cons {front back : List Char} {c : Char} (hc : c ∉ part)
    (h : part <:+: front ++ c :: back) : part <:+: front ∨ part <:+: back := by
  obtain ⟨before, after, heq⟩ := h
  rw [List.append_assoc] at heq
  rcases List.append_eq_append_iff.mp heq with ⟨mid, hfront, hmid⟩ | ⟨mid, hbefore, hmid⟩
  · -- The separator lies behind the beginning of the part, and so behind its end.
    rcases List.append_eq_append_iff.mp hmid with ⟨tail, hmid, -⟩ | ⟨tail, hpart, htail⟩
    · exact .inl ⟨before, tail, by rw [hfront, hmid, List.append_assoc]⟩
    · cases tail with
      | nil => exact .inl ⟨before, [], by rw [hfront, hpart]; simp⟩
      | cons d tail =>
          rw [(List.cons.inj htail).1] at hc
          exact absurd (by rw [hpart]; simp) hc
  · cases mid with
    | nil =>
        cases part with
        | nil => exact .inl (List.nil_infix)
        | cons d part => exact absurd (by rw [(List.cons.inj hmid).1]; simp) hc
    | cons d mid =>
        refine .inr ⟨mid, after, ?_⟩
        rw [List.append_assoc]
        exact (List.cons.inj hmid).2.symm

theorem IsUnbroken.infix_withoutReturn (hpart : IsUnbroken part) {line : List Char}
    (h : part <:+: line) : part <:+: withoutReturn line := by
  unfold withoutReturn
  split
  · rename_i rest hrest
    obtain ⟨front, c, rfl, hc⟩ := hpart.last
    have hline : line = rest.reverse ++ ['\r'] := by
      rw [← List.reverse_reverse line, hrest, List.reverse_cons]
    rw [hline, List.infix_concat_iff] at h
    rcases h with h | h
    · exact absurd (by simpa using h.getLast (by simp)) hc
    · exact h
  · exact h

/-- An unbroken part of a text stands in one of its lines. -/
theorem IsUnbroken.exists_mem_linesFrom (hpart : IsUnbroken part) {current cs : List Char}
    (h : part <:+: current.reverse ++ cs) : ∃ line ∈ linesFrom current cs, part <:+: line := by
  fun_induction linesFrom current cs with
  | case1 =>
      obtain ⟨front, c, rfl, -⟩ := hpart.last
      simp at h
  | case2 c current => exact ⟨_, List.mem_singleton_self _, by simpa using h⟩
  | case3 current cs ih =>
      rcases infix_or_infix_of_append_cons hpart.feed h with h | h
      · exact ⟨_, List.mem_cons_self, hpart.infix_withoutReturn h⟩
      · obtain ⟨line, hline, h⟩ := ih h
        exact ⟨line, List.mem_cons_of_mem _ hline, h⟩
  | case4 current c cs _ ih => exact ih (by simpa using h)

/-- Indenting a text leaves its unbroken parts as they are. -/
theorem IsWithin.indent (hp : IsUnbroken p.toList) (h : IsWithin p s) (depth : Nat) :
    IsWithin p (indent depth s) := by
  obtain ⟨line, hline, h⟩ : ∃ line ∈ linesFrom [] s.toList, p.toList <:+: line :=
    hp.exists_mem_linesFrom h
  have hne : String.ofList line ≠ "" := by
    intro hempty
    obtain ⟨front, c, hlast, -⟩ := hp.last
    have hline : line = [] := by simpa using congrArg String.toList hempty
    rw [hline, hlast] at h
    simp at h
  refine isWithin_intercalate
    (List.mem_map.mpr ⟨String.ofList line, List.mem_map.mpr ⟨line, hline, rfl⟩, rfl⟩) ?_
  rw [if_neg hne]
  refine IsWithin.right ?_ _
  rwa [IsWithin, String.toList_ofList]

/-- The literal of a text: it stands between quotes, the escapes inside give the text back, and it
goes over no line feed.  It has a carriage return exactly if the text has one; only then it is not
read, and in any other case it is read as the text, and what follows is left.  Wherever it stands,
no Unicode escape begins in it. -/
structure IsReadBack (s : String) : Prop where
  enclosed : ∃ inside, (javaLiteral s).toList = '"' :: (inside ++ ['"']) ∧
    unescaped inside = some s.toList
  feed : '\n' ∉ (javaLiteral s).toList
  carriageReturn : '\r' ∈ (javaLiteral s).toList ↔ '\r' ∈ s.toList
  read : ∀ rest, readJavaLiteral (javaLiteral s ++ rest) =
    if '\r' ∈ s.toList then none else some (s, rest)
  unicode : ∀ front back i, i < (javaLiteral s).length →
    ¬ UnicodeEscapeAt (front ++ (javaLiteral s).toList ++ back) (front.length + i)

theorem isReadBack (s : String) : IsReadBack s where
  enclosed := ⟨s.toList.flatMap javaEscape, toList_javaLiteral s, unescaped_flatMap_javaEscape _⟩
  feed := feed_not_mem_javaLiteral s
  carriageReturn := by
    have hend : isLineEnd '\r' = true := rfl
    simp [mem_javaLiteral_iff hend]
  read := readJavaLiteral_javaLiteral s
  unicode front back _ hi := not_unicodeEscapeAt_javaLiteral s front back hi

end Text

namespace Script.H2

open Plan (Expr Guard Identity Operation TrackedColumn TriggerSet)
open Sql (Dialect Fragment)
open Text (IsReadBack IsUnbroken IsWithin javaLiteral readJavaLiteral)

/-! ## Statements of a trigger -/

/-- The query that tests a guard. -/
def guardQuery (d : Dialect) (guard : Guard) : Fragment :=
  .ofText "SELECT CASE WHEN " ++ d.renderGuard guard ++ .ofText " THEN 'true' END"

/-- The statements with which one column is recorded, those for the header in the middle. -/
def columnStatements (d : Dialect) (set : TriggerSet) (op : Operation) (column : TrackedColumn) :
    List Fragment :=
  let key := Expr.variable Identity.entityKeyName
  let identity := (set.identity op.subject).fromLocals
  [guardQuery d (column.guarded op), selectHeader d set key,
    insertHeader d set (d.localValue headerLocal) key,
    insertChange d set column op identity (.variable headerLocal)]

/-- The queries for the computed values that are there. -/
def valueQueries (d : Dialect) (set : TriggerSet) (op : Operation) : List Fragment :=
  ((set.identity op.subject).values.filter fun v => !v.2.isNull).map fun v =>
    .ofText "SELECT " ++ d.render v.2

/-- The statements that a trigger prepares, as they are rendered. -/
def preparedStatements (d : Dialect) (set : TriggerSet) (op : Operation) : List Fragment :=
  guardQuery d set.skipGuard :: valueQueries d set op
    ++ if set.purges op then purgeStatements d set (set.identity op.subject).fromLocals.entityKey
      else set.columns.flatMap (columnStatements d set op)

/-- The beginning of the arguments of a call, up to the statement. -/
def leadingArguments (statement : Fragment) : String := "(conn, " ++ javaLiteral statement.sent

variable (d : Dialect) (set : TriggerSet) (op : Operation)

theorem isWithin_call (method : String) (statement : Fragment) :
    IsWithin (leadingArguments statement) (call method statement) := by
  refine IsWithin.left (IsWithin.left ?_ _) _
  rw [String.append_assoc]
  exact IsWithin.right (List.infix_refl _) method

/-- A statement stands on one line, with the quote that ends its literal. -/
theorem isUnbroken_leadingArguments (statement : Fragment) :
    IsUnbroken (leadingArguments statement).toList where
  feed := by
    rw [leadingArguments, String.toList_append, List.mem_append, not_or]
    exact ⟨by decide, Text.feed_not_mem_javaLiteral _⟩
  last := by
    refine ⟨"(conn, ".toList ++ '"' :: statement.sent.toList.flatMap Text.javaEscape, '"', ?_,
      by decide⟩
    rw [leadingArguments, String.toList_append, Text.toList_javaLiteral, List.append_assoc,
      List.cons_append]

theorem isWithin_test (guard : Guard) :
    IsWithin (leadingArguments (guardQuery d guard)) (test d guard) :=
  (isWithin_call "scalar" (guardQuery d guard)).left _

theorem isWithin_openHeader (statement : Fragment)
    (h : statement = selectHeader d set (.variable Identity.entityKeyName) ∨
      statement = insertHeader d set (d.localValue headerLocal)
        (.variable Identity.entityKeyName)) :
    IsWithin (leadingArguments statement) (openHeader d set) := by
  unfold openHeader
  rcases h with rfl | rfl
  · have hcall := isWithin_call "scalar" (selectHeader d set (.variable Identity.entityKeyName))
    exact hcall.right _ |>.left _ |>.left _ |>.left _ |>.left _ |>.left _ |>.left _ |>.left _
  · have hcall := isWithin_call "execute" (insertHeader d set (d.localValue headerLocal)
      (.variable Identity.entityKeyName))
    exact hcall.right _ |>.left _

theorem isWithin_recordColumn (column : TrackedColumn) :
    ∀ statement ∈ columnStatements d set op column,
      IsWithin (leadingArguments statement) (recordColumn d set op column) := by
  have hheader (statement : Fragment) (h : _) :=
    (isWithin_openHeader d set statement h).indent (isUnbroken_leadingArguments statement) 1
  have htest := isWithin_test d (column.guarded op)
  have hinsert := isWithin_call "execute" (insertChange d set column op
    (set.identity op.subject).fromLocals (.variable headerLocal))
  simp only [columnStatements, List.forall_mem_cons]
  unfold recordColumn
  refine ⟨?_, ?_, ?_, ?_, List.forall_mem_nil _⟩
  · exact htest.right _ |>.left _ |>.left _ |>.left _ |>.left _ |>.left _
  · exact (hheader _ (.inl rfl)).right _ |>.left _ |>.left _ |>.left _
  · exact (hheader _ (.inr rfl)).right _ |>.left _ |>.left _ |>.left _
  · exact hinsert.right _ |>.left _

/-- Every statement stands in a line of the method that fires. -/
theorem exists_isWithin_line {statement : Fragment} (h : statement ∈ preparedStatements d set op) :
    IsWithin (leadingArguments statement) (fireBody d set op) := by
  unfold fireBody
  rcases List.mem_cons.mp h with rfl | h
  · exact Text.isWithin_intercalate List.mem_cons_self
      (((isWithin_test d set.skipGuard).right _).left _)
  have hlines {lines : List String} {line : String} (hline : line ∈ lines) {first : String}
      (h : IsWithin (leadingArguments statement) line) :
      IsWithin (leadingArguments statement) ("\n".intercalate (first :: lines)) :=
    Text.isWithin_intercalate (List.mem_cons_of_mem _ hline) h
  -- Behind the test stand the values that are computed once, then the statements of the operation.
  rcases List.mem_append.mp h with h | h
  · obtain ⟨v, hv, rfl⟩ := List.mem_map.mp h
    refine hlines (List.mem_append_left _ (List.mem_map.mpr ⟨v, hv, rfl⟩)) ?_
    exact ((isWithin_call "scalar" _).right _).left _
  · unfold statements
    split at h
    · rename_i hpurges
      rw [if_pos hpurges]
      refine hlines (List.mem_append_right _ (List.mem_map.mpr ⟨statement, h, rfl⟩)) ?_
      exact (isWithin_call "execute" statement).left _
    · rename_i hpurges
      rw [if_neg hpurges]
      obtain ⟨column, hcolumn, h⟩ := List.mem_flatMap.mp h
      exact hlines (List.mem_append_right _ (List.mem_cons_of_mem _
        (List.mem_map.mpr ⟨column, hcolumn, rfl⟩)))
        (isWithin_recordColumn d set op column statement h)

/-- Every statement stands in the source of the trigger. -/
theorem isWithin_source {statement : Fragment} (h : statement ∈ preparedStatements d set op) :
    IsWithin (leadingArguments statement) (trigger d set op).source := by
  have hunbroken := isUnbroken_leadingArguments statement
  have hbody := (exists_isWithin_line d set op h).indent hunbroken 1
  have hmethod : IsWithin (leadingArguments statement) (fireMethod d set op) :=
    (hbody.right _).left _
  have hclass := (hmethod.right (members ++ "\n\n")).indent hunbroken 2
  exact (hclass.right _).left _

/-- The declared type of a column stands in every insert of a change record for it. -/
theorem isWithin_insertChange (column : TrackedColumn) (identity : Identity) (header : Expr) :
    IsWithin (Text.sqlLiteral column.type)
      (insertChange d set column op identity header).sent := by
  have hmem : Fragment.ofText (Text.sqlLiteral column.type) ∈
      changeValues d set column op identity header := by
    simp [changeValues]
  rw [insertChange, insertRow, Fragment.sent_append, Fragment.sent_append, Fragment.sent_join]
  refine IsWithin.left (IsWithin.right ?_ _) _
  refine Text.isWithin_intercalate (List.mem_map.mpr ⟨_, hmem, Fragment.sent_ofText _⟩) ?_
  exact List.infix_refl _

/-- A text is read back from its literal, but for carriage returns; and so is every statement that a
trigger prepares, from the literal in its source. -/
theorem statements_readBack (s : String) : IsReadBack s ∧
    ∀ statement ∈ preparedStatements d set op, ∃ before literal rest,
      (trigger d set op).source = before ++ "(conn, " ++ literal ∧
        readJavaLiteral literal =
          if '\r' ∈ statement.sent.toList then none else some (statement.sent, rest) := by
  refine ⟨Text.isReadBack s, fun statement h => ?_⟩
  obtain ⟨before, rest, hsource⟩ := (isWithin_source d set op h).exists_eq
  refine ⟨before, javaLiteral statement.sent ++ rest, rest, ?_,
    Text.readJavaLiteral_javaLiteral _ _⟩
  rw [hsource, leadingArguments]
  simp only [String.append_assoc]

/-! ### Notes -/

namespace Notes

/-- The text of a note, declared with the type. -/
def textColumn (type : String) : TrackedColumn where
  name := "text"
  type := type
  watched := ["text"]
  value := .encoded .truncated (.column .subject "text")
  label := none
  skipFlag := "changelog.skip_element_shop_2enotes__text"

/-- Notes under the name, with a text of the type. -/
def notes (entity type : String) : TriggerSet where
  entity := entity
  collection := none
  service := none
  primaryKey := ["ID"]
  key := Plan.encodeKey ["ID"] .subject
  identifier := none
  owner := none
  columns := [textColumn type]
  operations := Operation.all
  deletePolicy := .cascade
  skipFlags := ["changelog.skip"]
  changesTable := "sap.changelog.Changes"
  headerTable := "sap.changelog.ChangeLog"

/-- The query for the header of a note. -/
def findHeader (entity type : String) : Fragment :=
  selectHeader (.h2 false) (notes entity type) (.variable Identity.entityKeyName)

/-- The insert of a change record for a new text. -/
def insertText (entity type : String) : Fragment :=
  insertChange (.h2 false) (notes entity type) (textColumn type) .create
    ((notes entity type).identity .new).fromLocals (.variable headerLocal)

theorem columnStatements_subset (entity type : String) :
    columnStatements (.h2 false) (notes entity type) .create (textColumn type) ⊆
      preparedStatements (.h2 false) (notes entity type) .create := fun _ h =>
  List.mem_append_right _ (List.mem_flatMap.mpr ⟨_, List.mem_singleton_self _, h⟩)

theorem findHeader_mem (entity type : String) :
    findHeader entity type ∈ preparedStatements (.h2 false) (notes entity type) .create :=
  columnStatements_subset entity type (by simp [columnStatements, findHeader])

theorem insertText_mem (entity type : String) :
    insertText entity type ∈ preparedStatements (.h2 false) (notes entity type) .create :=
  columnStatements_subset entity type (by simp [columnStatements, insertText, Operation.subject])

/-- A name with quotes, a backslash and a line feed of its own. -/
def awkwardName : String := "it's \"long\\\n"

/-- The query for a header is read back with such a name in it. -/
theorem readBack_awkwardName :
    IsReadBack "\\u0022\n\"" ∧
    '\r' ∉ (findHeader awkwardName "cds.String").sent.toList ∧
    findHeader awkwardName "cds.String" ∈
      preparedStatements (.h2 false) (notes awkwardName "cds.String") .create ∧
    ∃ before literal rest,
      (trigger (.h2 false) (notes awkwardName "cds.String") .create).source =
        before ++ "(conn, " ++ literal ∧
      readJavaLiteral literal = some ((findHeader awkwardName "cds.String").sent, rest) := by
  have hreturn : '\r' ∉ (findHeader awkwardName "cds.String").sent.toList := by decide +kernel
  obtain ⟨hliteral, hstatements⟩ :=
    statements_readBack (.h2 false) (notes awkwardName "cds.String") .create "\\u0022\n\""
  obtain ⟨before, literal, rest, hsource, hread⟩ := hstatements _ (findHeader_mem _ _)
  rw [if_neg hreturn] at hread
  exact ⟨hliteral, hreturn, findHeader_mem _ _, before, literal, rest, hsource, hread⟩

/-- A carriage return stays what it is: a literal with one is not read, and neither is the statement
that a trigger prepares for a column of such a type. -/
theorem carriageReturn_not_read :
    '\r' ∈ (javaLiteral "a\rb").toList ∧ readJavaLiteral (javaLiteral "a\rb") = none ∧
      insertText "shop.Notes" "cds.Str\ring" ∈
        preparedStatements (.h2 false) (notes "shop.Notes" "cds.Str\ring") .create ∧
      readJavaLiteral (javaLiteral (insertText "shop.Notes" "cds.Str\ring").sent) = none := by
  refine ⟨by decide, by decide, insertText_mem _ _, ?_⟩
  have hreturn : '\r' ∈ (insertText "shop.Notes" "cds.Str\ring").sent.toList :=
    (isWithin_insertChange _ _ _ _ _ _).subset (by decide)
  have hread := Text.readJavaLiteral_javaLiteral
    (insertText "shop.Notes" "cds.Str\ring").sent ""
  rwa [String.append_empty, if_pos hreturn] at hread

end Notes

end Script.H2

end ChangeTracking
