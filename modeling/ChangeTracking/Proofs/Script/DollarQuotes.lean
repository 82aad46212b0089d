import ChangeTracking.Proofs.Script.Generations
import ChangeTracking.Proofs.Script.Values
import ChangeTracking.Proofs.Sql.Dollars

/-!
# Dollar quotes

The function of a PostgreSQL trigger and the class of an H2 trigger stand between dollar
quotes.  Names and types are spliced into them, between quotes of their own; so the dollar
quotes are the only ones in the text, as long as no name and no type has two dollar signs in
a row itself.  Neither is refused for that.
-/

namespace ChangeTracking.Script

open Naming (IsName)
open Plan (Expr Guard Identity Operation TrackedColumn Transition TriggerSet planAll)
open Schema (Model)
open Sql (Dialect Fragment TameName)
open Sql.Fragment (isTame_ofText isTame_join)
open Text (DollarQuoted SingleDollars Tame)
open Tracking (Analysis analyze)

/-! ## Statements -/

/-- The names and the types in the set have no two dollar signs in a row. -/
structure SetTame (s : TriggerSet) : Prop where
  spelled : s.IsSpelled TameName
  types : ∀ c ∈ s.columns, SingleDollars c.type.toList
  flags : ∀ flag ∈ s.skipFlags, SingleDollars flag.toList
  columnFlags : ∀ c ∈ s.columns, SingleDollars c.skipFlag.toList
  changesTable : TameName s.changesTable
  headerTable : TameName s.headerTable

variable {d : Dialect} {set : TriggerSet}

theorem isTame_whereClause (hd : d.WritesTamely) (hranks : d.ranksAlternatives = false)
    {filters : List (String × Expr)} (h : ∀ f ∈ filters, TameName f.1 ∧ f.2.IsSpelled TameName) :
    (whereClause d filters).IsTame := by
  refine isTame_join (by decide) fun f hf => ?_
  obtain ⟨filter, hfilter, rfl⟩ := List.mem_map.mp hf
  obtain ⟨hname, hvalue⟩ := h filter hfilter
  exact (isTame_ofText ((hd.columnName hname).append (by decide))).append
    (Sql.Term.isTame_ofExpr hd hranks hvalue)

theorem tame_columnList (hd : d.WritesTamely) {columns : List String}
    (h : ∀ column ∈ columns, TameName column) : Tame (columnList d columns) := by
  refine Text.tame_intercalate (by decide) fun text htext => ?_
  obtain ⟨column, hcolumn, rfl⟩ := List.mem_map.mp htext
  exact hd.columnName (h column hcolumn)

theorem isTame_insertRow (hd : d.WritesTamely) {table : String} (htable : TameName table)
    {columns : List String} (hcolumns : ∀ column ∈ columns, TameName column)
    {values : List Fragment} (hvalues : ∀ value ∈ values, value.IsTame) :
    (insertRow d table columns values).IsTame := by
  have hopening : Tame ("INSERT INTO " ++ d.tableName table ++ " (" ++ columnList d columns
      ++ ") VALUES (") :=
    (Text.tame_ofList (by decide)).splice (hd.tableName htable) (by decide)
      |>.splice (tame_columnList hd hcolumns) (by decide)
  exact (isTame_ofText hopening).splice (isTame_join (by decide) hvalues) (by decide)

theorem guardTame_skipGuard (hd : d.WritesTamely) (hs : SetTame set) :
    Sql.GuardTame d set.skipGuard := by
  refine Sql.guardTame_anyOf fun g hg => ?_
  obtain ⟨flag, hflag, rfl⟩ := List.mem_map.mp hg
  exact Sql.guardTame_flag hd (hs.flags flag hflag)

/-- The locals of computed values have tame names. -/
theorem isSpelled_locals (hs : SetTame set) (row : Plan.RowRole) :
    (set.identity row).fromLocals.IsSpelled TameName :=
  isSpelled_fromLocals (by decide) hs.spelled row

section Statements

variable (hd : d.WritesTamely) (hranks : d.ranksAlternatives = false) (hs : SetTame set)

include hd hranks hs

theorem isTame_historyFilters {key : Expr} (hkey : key.IsSpelled TameName) :
    (whereClause d (historyFilters set key)).IsTame :=
  isTame_whereClause hd hranks (isSpelled_historyFilters (by decide) (by decide) hs.spelled hkey)

omit hs in
theorem shows_isTame : Shows d TameName Fragment.IsTame where
  render _ h := Sql.Term.isTame_ofExpr hd hranks h
  literal _ h := isTame_ofText (Text.tame_sqlLiteral h.tame.singleDollars)
  freshId := isTame_ofText hd.freshId
  now := isTame_ofText hd.now
  currentUser := hd.currentUser
  transactionId := hd.transactionId
  modification op := by cases op <;> decide

theorem isTame_insertHeader {id : Fragment} (hid : id.IsTame) {key : Expr}
    (hkey : key.IsSpelled TameName) : (insertHeader d set id key).IsTame :=
  isTame_insertRow hd hs.headerTable (by decide)
    ((shows_isTame hd hranks).headerValues hs.spelled hid hkey)

theorem isTame_insertChange {column : TrackedColumn} (hcolumn : column ∈ set.columns)
    (op : Operation) {identity : Identity} (hidentity : identity.IsSpelled TameName) {header : Expr}
    (hheader : header.IsSpelled TameName) :
    (insertChange d set column op identity header).IsTame := by
  have htype : (Fragment.ofText (Text.sqlLiteral column.type)).IsTame :=
    isTame_ofText (Text.tame_sqlLiteral (hs.types column hcolumn))
  exact isTame_insertRow hd hs.changesTable (by decide)
    ((shows_isTame hd hranks).changeValues hs.spelled hcolumn htype op hidentity hheader)

theorem isTame_purgeStatements {key : Expr} (hkey : key.IsSpelled TameName) :
    ∀ statement ∈ purgeStatements d set key, statement.IsTame := by
  intro statement hstatement
  obtain ⟨table, htable, rfl⟩ := List.mem_map.mp hstatement
  have hname : TameName table := by
    simp only [List.mem_cons, List.not_mem_nil, or_false] at htable
    rcases htable with rfl | rfl
    · exact hs.changesTable
    · exact hs.headerTable
  have hopening : Tame ("DELETE FROM " ++ d.tableName table ++ " WHERE ") :=
    (Text.tame_ofList (by decide)).splice (hd.tableName hname) (by decide)
  exact (isTame_ofText hopening).append (isTame_historyFilters hd hranks hs hkey)

end Statements

/-- The names of the set's triggers are tame. -/
theorem tameName_stem (hs : SetTame set) : TameName set.stem := by
  refine TameName.append (TameName.append hs.spelled.entity.flat (by decide)) ?_
  split
  · rename_i element helement
    exact TameName.append (by decide) (hs.spelled.collection element helement)
  · decide

theorem tame_operationName (hd : d.WritesTamely) (hs : SetTame set) (op : Operation) :
    Tame (operationName d set op) := by
  refine hd.fold _ (((tameName_stem hs).append (by decide)).append ?_)
  cases op <;> decide

theorem tame_names {i : Identity} : ∀ v ∈ i.values, Tame v.1 := by
  simp only [Identity.values, List.forall_mem_cons]
  exact ⟨by decide, by decide, by decide, by decide, List.forall_mem_nil _⟩

/-! ## PostgreSQL -/

namespace Postgres

section Bodies

variable (hd : d.WritesTamely) (hranks : d.ranksAlternatives = false) (hs : SetTame set)

include hd hranks hs

theorem tame_openHeader : Tame (openHeader d set) := by
  have hlocal : Tame headerLocal := by decide
  have hkey : (Expr.variable Identity.entityKeyName).IsSpelled TameName :=
    Expr.isSpelled_ofLocal (by decide)
  have hid : Tame (d.columnName "ID") := hd.columnName (by decide)
  have htable := hd.tableName hs.headerTable
  have hwhere := (isTame_historyFilters hd hranks hs hkey).sent
  have hfresh := hd.freshId
  have hinsert := (isTame_insertHeader hd hranks hs (isTame_ofText hlocal) hkey).sent
  unfold openHeader
  -- The parts are spliced in as they are written, each with the literal behind it.
  exact (Text.tame_ofList (by decide)).splice hlocal (by decide) |>.splice hid (by decide)
    |>.splice hlocal (by decide) |>.splice htable (by decide) |>.splice hwhere (by decide)
    |>.splice hlocal (by decide) |>.splice hlocal (by decide) |>.splice hfresh (by decide)
    |>.splice hinsert (by decide)

theorem tame_recordColumn {column : TrackedColumn} (hcolumn : column ∈ set.columns)
    (op : Operation) : Tame (recordColumn d set op column) := by
  have hguard : Tame (d.renderGuard (column.guarded op)).sent :=
    (Sql.guardTame_guarded hd hranks hs.spelled hcolumn (hs.columnFlags column hcolumn) op).sent
  have hheader := Text.tame_indent 0 (tame_openHeader hd hranks hs).singleDollars
  have hlocal : (Expr.variable headerName).IsSpelled TameName := Expr.isSpelled_ofLocal (by decide)
  have hinsert := (isTame_insertChange hd hranks hs hcolumn op (isSpelled_locals hs .record)
    hlocal).sent
  unfold recordColumn
  exact (Text.tame_ofList (by decide)).splice hguard (by decide) |>.splice hheader (by decide)
    |>.splice hinsert (by decide)

theorem tame_branch (op : Operation) : Tame (branch d set op) := by
  unfold branch
  split
  · refine Text.tame_intercalate (by decide) fun line hline => ?_
    obtain ⟨text, htext, rfl⟩ := List.mem_map.mp hline
    obtain ⟨statement, hstatement, rfl⟩ := List.mem_map.mp htext
    have hkey := (isSpelled_locals hs .record).values _ List.mem_cons_self
    exact (isTame_purgeStatements hd hranks hs hkey statement hstatement).sent.append (by decide)
  · refine Text.tame_intercalate (by decide) fun text htext => ?_
    obtain ⟨column, hcolumn, rfl⟩ := List.mem_map.mp htext
    exact tame_recordColumn hd hranks hs hcolumn op

theorem tame_branches {keyword : String} (hkeyword : Tame keyword) (ops : List Operation) :
    ∀ text ∈ branches d set keyword ops, Tame text := by
  induction ops generalizing keyword with
  | nil => exact List.forall_mem_nil _
  | cons op ops ih =>
      refine List.forall_mem_cons.mpr ⟨?_, ih (by decide)⟩
      have hevent : Tame op.event := by cases op <;> decide
      have hbranch := Text.tame_indent 0 (tame_branch hd hranks hs op).singleDollars
      exact (hkeyword.append (Text.tame_ofList (by decide))).splice hevent (by decide)
        |>.append hbranch

omit hd hranks in
theorem spelled_of_mem_computed : ∀ v ∈ computed set, Tame v.1 ∧ v.2.IsSpelled TameName := by
  intro v hv
  obtain ⟨value, hvalue, rfl⟩ := List.mem_map.mp hv
  have hmem := (List.mem_filter.mp hvalue).1
  exact ⟨Text.Tame.append (by decide) (tame_names value hmem),
    (hs.spelled.identity .record).values value hmem⟩

set_option maxRecDepth 2000 in
theorem tame_body (ops : List Operation) : Tame (body d set ops) := by
  have hskip : Tame (d.renderGuard set.skipGuard).sent := (guardTame_skipGuard hd hs).sent
  have hassignments : ∀ text ∈ (computed set).map fun v =>
      v.1 ++ " := " ++ (d.render v.2).sent ++ ";", Tame text := by
    intro text htext
    obtain ⟨v, hv, rfl⟩ := List.mem_map.mp htext
    obtain ⟨hname, hvalue⟩ := spelled_of_mem_computed hs v hv
    exact (hname.append (by decide)).splice (Sql.Term.isTame_ofExpr hd hranks hvalue).sent
      (by decide)
  have hlines := Text.tame_intercalate (show Tame "\n" by decide) hassignments
  have hbranches := Text.tame_intercalate (show Tame "\n" by decide)
    (tame_branches hd hranks hs (show Tame "IF" by decide) ops)
  unfold body
  exact (Text.tame_ofList (by decide)).splice hskip (by decide)
    |>.append (Text.tame_ofList (by decide)) |>.splice hlines (by decide)
    |>.splice hbranches (by decide)

omit hd hranks in
theorem tame_declarations : Tame ("\n".intercalate (declarations set)) := by
  refine Text.tame_intercalate (by decide) ?_
  simp only [declarations, List.forall_mem_append, List.forall_mem_singleton]
  refine ⟨⟨by decide, fun text htext => ?_⟩, by decide⟩
  obtain ⟨v, hv, rfl⟩ := List.mem_map.mp htext
  exact (spelled_of_mem_computed hs v hv).1.append (by decide)

end Bodies

/-- What the text of a function has between the dollar quotes, in front of the last line feed. -/
def quotedPart (d : Dialect) (set : TriggerSet) (ops : List Operation) : String :=
  "\nDECLARE\n" ++ Text.indent 1 ("\n".intercalate (declarations set)) ++ "\nBEGIN\n"
    ++ Text.indent 1 (body d set ops) ++ "\nEND;"

/-- The trigger behind a function. -/
def callingTrigger (d : Dialect) (set : TriggerSet) (ops : List Operation) (stem : String) :
    String :=
  "\n\nCREATE TRIGGER " ++ Text.sqlIdentifier (stem ++ "_trigger") ++ " AFTER "
    ++ " OR ".intercalate (ops.map Operation.event) ++ " ON " ++ d.tableName set.entity
    ++ " FOR EACH ROW EXECUTE FUNCTION " ++ Text.sqlIdentifier (stem ++ "_func") ++ "();"

theorem source_pair (d : Dialect) (set : TriggerSet) (ops : List Operation) (stem : String) :
    (pair d set ops stem).source =
      ("CREATE OR REPLACE FUNCTION " ++ Text.sqlIdentifier (stem ++ "_func")
          ++ "() RETURNS TRIGGER") ++ " AS " ++ "$$" ++ (quotedPart d set ops ++ "\n") ++ "$$"
        ++ (" LANGUAGE plpgsql;" ++ callingTrigger d set ops stem) := by
  have hopening : "() RETURNS TRIGGER AS $$\nDECLARE\n" =
      "() RETURNS TRIGGER" ++ (" AS " ++ ("$$" ++ "\nDECLARE\n")) := rfl
  have hclosing : "\nEND;\n$$ LANGUAGE plpgsql;" =
      "\nEND;" ++ ("\n" ++ ("$$" ++ " LANGUAGE plpgsql;")) := rfl
  unfold pair function quotedPart callingTrigger
  dsimp only
  rw [hopening, hclosing]
  simp only [String.append_assoc, -String.reduceAppend]

/-- The body of a function is quoted. -/
theorem dollarQuoted_pair (hd : d.WritesTamely) (hranks : d.ranksAlternatives = false)
    (hs : SetTame set) (ops : List Operation) {stem : String} (hstem : Tame stem) :
    DollarQuoted " AS " " LANGUAGE plpgsql;" (pair d set ops stem).source := by
  have hfunction : Tame (Text.sqlIdentifier (stem ++ "_func")) :=
    Text.tame_sqlIdentifier (hstem.append (by decide)).singleDollars
  have htrigger : Tame (Text.sqlIdentifier (stem ++ "_trigger")) :=
    Text.tame_sqlIdentifier (hstem.append (by decide)).singleDollars
  have hdeclarations := Text.tame_indent 0 (tame_declarations hs).singleDollars
  have hbody := Text.tame_indent 0 (tame_body hd hranks hs ops).singleDollars
  have hevents : Tame (" OR ".intercalate (ops.map Operation.event)) := by
    refine Text.tame_intercalate (by decide) fun text htext => ?_
    obtain ⟨op, -, rfl⟩ := List.mem_map.mp htext
    cases op <;> decide
  have htable := hd.tableName hs.spelled.entity
  rw [source_pair]
  refine Text.dollarQuoted_of_tame ?_ (by decide) ?_ (by decide) ?_
  · exact (Text.tame_ofList (by decide)).splice hfunction (by decide)
  · exact (Text.tame_ofList (by decide)).splice hdeclarations (by decide)
      |>.splice hbody (by decide)
  · exact (Text.tame_ofList (by decide)).splice htrigger (by decide) |>.splice hevents (by decide)
      |>.splice htable (by decide) |>.splice hfunction (by decide)

/-- Two dollar signs in the name of the table are not between the quotes. -/
theorem not_dollarQuoted_pair {opening closing : String} (ops : List Operation) (stem : String)
    (h : ¬ SingleDollars (d.tableName set.entity).toList) :
    ¬ DollarQuoted opening closing (pair d set ops stem).source := by
  rw [source_pair]
  refine Text.not_dollarQuoted (.inr fun hsingle => h ?_)
  have hcalling := hsingle.right
  unfold callingTrigger at hcalling
  exact hcalling.left.left.left.right

end Postgres

/-! ## H2 -/

namespace H2

theorem tame_call {method : String} (hmethod : Tame method) {statement : Fragment}
    (h : statement.IsTame) : Tame (call method statement) := by
  have hliteral := Text.tame_javaLiteral h.sent.singleDollars
  have hparameters : Tame (String.join (statement.parameters.map (", " ++ ·))) := by
    refine Text.tame_join fun text htext => ?_
    obtain ⟨host, hhost, rfl⟩ := List.mem_map.mp htext
    exact Text.Tame.append (by decide) (h.parameters host hhost)
  exact hmethod.append (by decide) |>.append hliteral |>.splice hparameters (by decide)

theorem tame_test {g : Guard} (h : Sql.GuardTame d g) : Tame (test d g) := by
  have hguard : (d.renderGuard g).IsTame := h
  exact tame_call (by decide) ((isTame_ofText (by decide)).splice hguard (by decide))
    |>.append (by decide)

set_option maxRecDepth 2000 in
theorem tame_members : Tame members := by
  have hlines : ∀ lines ∈ [columnIndex, initMethod, valueMethod, prepareMethod, scalarMethod,
      executeMethod, closeMethod, removeMethod], ∀ line ∈ lines, Tame line := by
    simp only [columnIndex, initMethod, valueMethod, prepareMethod, scalarMethod, executeMethod,
      closeMethod, removeMethod, List.forall_mem_cons]
    repeat' apply And.intro
    all_goals first | exact List.forall_mem_nil _ | exact Text.tame_ofList (by decide)
  refine Text.tame_intercalate (by decide) fun text htext => ?_
  obtain ⟨lines, hmem, rfl⟩ := List.mem_map.mp htext
  exact Text.tame_intercalate (by decide) (hlines lines hmem)

section Bodies

variable (hd : d.WritesTamely) (hranks : d.ranksAlternatives = false) (hs : SetTame set)

include hd hranks hs

theorem tame_openHeader : Tame (openHeader d set) := by
  have hlocal : Tame headerLocal := by decide
  have hkey : (Expr.variable Identity.entityKeyName).IsSpelled TameName :=
    Expr.isSpelled_ofLocal (by decide)
  have hselect : (selectHeader d set (.variable Identity.entityKeyName)).IsTame := by
    have hopening : Tame ("SELECT " ++ d.columnName "ID" ++ " FROM " ++ d.tableName set.headerTable
        ++ " WHERE ") :=
      (Text.tame_ofList (by decide)).splice (hd.columnName (by decide)) (by decide)
        |>.splice (hd.tableName hs.headerTable) (by decide)
    exact (isTame_ofText hopening).append (isTame_historyFilters hd hranks hs hkey)
  have hfind := tame_call (show Tame "scalar" by decide) hselect
  have hinsert := tame_call (show Tame "execute" by decide)
    (isTame_insertHeader hd hranks hs (hd.localValue headerLocal (by decide)) hkey)
  unfold openHeader
  exact (Text.tame_ofList (by decide)).splice hlocal (by decide) |>.splice hlocal (by decide)
    |>.splice hfind (by decide) |>.splice hlocal (by decide) |>.splice hlocal (by decide)
    |>.splice hinsert (by decide)

theorem tame_recordColumn {column : TrackedColumn} (hcolumn : column ∈ set.columns)
    (op : Operation) : Tame (recordColumn d set op column) := by
  have htest := tame_test (Sql.guardTame_guarded hd hranks hs.spelled hcolumn
    (hs.columnFlags column hcolumn) op)
  have hheader := Text.tame_indent 0 (tame_openHeader hd hranks hs).singleDollars
  have hlocal : (Expr.variable headerLocal).IsSpelled TameName := Expr.isSpelled_ofLocal (by decide)
  have hinsert := tame_call (show Tame "execute" by decide)
    (isTame_insertChange hd hranks hs hcolumn op (isSpelled_locals hs op.subject) hlocal)
  unfold recordColumn
  exact (Text.tame_ofList (by decide)).splice htest (by decide) |>.splice hheader (by decide)
    |>.splice hinsert (by decide)

theorem tame_declarations (op : Operation) : ∀ text ∈ declarations d set op, Tame text := by
  intro text htext
  obtain ⟨v, hv, rfl⟩ := List.mem_map.mp htext
  have hmem := (List.mem_filter.mp hv).1
  have hvalue := (hs.spelled.identity op.subject).values v hmem
  have hcall := tame_call (show Tame "scalar" by decide)
    ((isTame_ofText (show Tame "SELECT " by decide)).append
      (Sql.Term.isTame_ofExpr hd hranks hvalue))
  exact (Text.tame_ofList (by decide)).splice (tame_names v hmem) (by decide)
    |>.splice hcall (by decide)

theorem tame_statements (op : Operation) : ∀ text ∈ statements d set op, Tame text := by
  unfold statements
  split
  · intro text htext
    obtain ⟨statement, hstatement, rfl⟩ := List.mem_map.mp htext
    have hkey := (isSpelled_locals hs op.subject).values _ List.mem_cons_self
    exact (tame_call (by decide)
      (isTame_purgeStatements hd hranks hs hkey statement hstatement)).append (by decide)
  · refine List.forall_mem_cons.mpr ⟨by decide, fun text htext => ?_⟩
    obtain ⟨column, hcolumn, rfl⟩ := List.mem_map.mp htext
    exact tame_recordColumn hd hranks hs hcolumn op

set_option maxRecDepth 2000 in
theorem tame_fireMethod (op : Operation) : Tame (fireMethod d set op) := by
  have hskip := tame_test (guardTame_skipGuard hd hs)
  have hbody : Tame (fireBody d set op) := by
    refine Text.tame_intercalate (by decide) (List.forall_mem_cons.mpr ⟨?_,
      List.forall_mem_append.mpr
        ⟨tame_declarations hd hranks hs op, tame_statements hd hranks hs op⟩⟩)
    exact (Text.tame_ofList (by decide)).splice hskip (by decide)
  have hindented := Text.tame_indent 0 hbody.singleDollars
  unfold fireMethod
  exact Text.Tame.append (Text.tame_ofList (by decide)) (Text.tame_ofList (by decide))
    |>.splice hindented (by decide)

end Bodies

/-- What the text of a trigger has between the dollar quotes, in front of the last line feed. -/
def quotedPart (d : Dialect) (set : TriggerSet) (op : Operation) : String :=
  "\norg.h2.api.Trigger create() \x7b\n    return new org.h2.api.Trigger() \x7b\n"
    ++ Text.indent 2 (members ++ "\n\n" ++ fireMethod d set op) ++ "\n    \x7d;\n\x7d"

theorem source_trigger (d : Dialect) (set : TriggerSet) (op : Operation) :
    (trigger d set op).source =
      ("CREATE TRIGGER " ++ Text.sqlIdentifier (operationName d set op) ++ " AFTER " ++ op.event
          ++ " ON " ++ d.tableName set.entity ++ " FOR EACH ROW") ++ " AS " ++ "$$"
        ++ (quotedPart d set op ++ "\n") ++ "$$" ++ (";" ++ "") := by
  have hopening : " FOR EACH ROW AS $$\norg.h2.api.Trigger create() \x7b\n" =
      " FOR EACH ROW" ++ (" AS " ++ ("$$" ++ "\norg.h2.api.Trigger create() \x7b\n")) := rfl
  have hclosing : "\n    \x7d;\n\x7d\n$$;" =
      "\n    \x7d;\n\x7d" ++ ("\n" ++ ("$$" ++ (";" ++ ""))) := rfl
  have hcreate : "\norg.h2.api.Trigger create() \x7b\n    return new org.h2.api.Trigger() \x7b\n" =
      "\norg.h2.api.Trigger create() \x7b\n" ++ "    return new org.h2.api.Trigger() \x7b\n" := rfl
  unfold trigger quotedPart
  dsimp only
  rw [hopening, hclosing, hcreate]
  simp only [String.append_assoc, -String.reduceAppend]

set_option maxRecDepth 2000 in
/-- The class of a trigger is quoted. -/
theorem dollarQuoted_trigger (hd : d.WritesTamely) (hranks : d.ranksAlternatives = false)
    (hs : SetTame set) (op : Operation) :
    DollarQuoted " AS " ";" (trigger d set op).source := by
  have hname := Text.tame_sqlIdentifier (tame_operationName hd hs op).singleDollars
  have hevent : Tame op.event := by cases op <;> decide
  have htable := hd.tableName hs.spelled.entity
  have hclass : Tame (members ++ "\n\n" ++ fireMethod d set op) :=
    (tame_members.append (by decide)).append (tame_fireMethod hd hranks hs op)
  have hindented := Text.tame_indent 1 hclass.singleDollars
  rw [source_trigger]
  refine Text.dollarQuoted_of_tame ?_ (by decide) ?_ (by decide) (by decide)
  · exact (Text.tame_ofList (by decide)).splice hname (by decide) |>.splice hevent (by decide)
      |>.splice htable (by decide)
  · exact (Text.tame_ofList (by decide)).splice hindented (by decide)

/-- Two dollar signs in the name of the table are not between the quotes. -/
theorem not_dollarQuoted_trigger {opening closing : String} (op : Operation)
    (h : ¬ SingleDollars (d.tableName set.entity).toList) :
    ¬ DollarQuoted opening closing (trigger d set op).source := by
  rw [source_trigger]
  exact Text.not_dollarQuoted (.inl fun hsingle => h hsingle.left.left.right)

end H2

/-! ## Artifacts of entities -/

namespace Generator

/-- What follows the closing quote. -/
def closing (g : Generator) : String :=
  match g.backend with
  | .postgres => " LANGUAGE plpgsql;"
  | _ => ";"

/-- The backends whose artifacts hold code between dollar quotes. -/
def QuotesByDollars (g : Generator) : Prop := g.backend = .postgres ∨ g.backend = .h2

variable {g : Generator}

theorem ranksAlternatives_of_quotesByDollars (hg : g.QuotesByDollars) :
    g.dialect.ranksAlternatives = false := by
  obtain ⟨backend, quoted⟩ := g
  rcases hg with rfl | rfl <;> rfl

/-- The code of a single trigger is quoted. -/
theorem dollarQuoted_trigger (hg : g.QuotesByDollars) (hs : SetTame set) (op : Operation) :
    DollarQuoted " AS " g.closing (g.trigger set op).source := by
  have hd : g.dialect.WritesTamely := Dialect.writesTamely_of g.backend g.quoted
  have hranks := ranksAlternatives_of_quotesByDollars hg
  rw [trigger, closing]
  rcases hg with hbackend | hbackend
  · rw [hbackend]
    exact Postgres.dollarQuoted_pair hd hranks hs _ (tame_operationName hd hs op)
  · rw [hbackend]
    exact H2.dollarQuoted_trigger hd hranks hs op

/-- What the artifacts of a set are: one pair, or a trigger for each operation. -/
theorem eq_of_mem_artifacts (hg : g.QuotesByDollars) {artifact : Artifact}
    (h : artifact ∈ g.artifacts set) :
    (g.backend = .postgres ∧
        artifact = Postgres.pair g.dialect set set.operations (g.dialect.fold set.stem)) ∨
      (g.backend = .h2 ∧ ∃ op, artifact = H2.trigger g.dialect set op) := by
  rw [artifacts] at h
  rcases hg with hbackend | hbackend
  · rw [hbackend] at h
    dsimp only at h
    unfold Postgres.combined at h
    split at h
    · cases h
    · exact .inl ⟨hbackend, List.mem_singleton.mp h⟩
  · rw [hbackend] at h
    dsimp only at h
    obtain ⟨op, -, rfl⟩ := List.mem_map.mp h
    refine .inr ⟨hbackend, op, ?_⟩
    rw [trigger, hbackend]

/-- The code of every artifact of a set is quoted. -/
theorem dollarQuoted_artifacts (hg : g.QuotesByDollars) (hs : SetTame set) :
    ∀ artifact ∈ g.artifacts set, DollarQuoted " AS " g.closing artifact.source := by
  intro artifact hartifact
  have hd : g.dialect.WritesTamely := Dialect.writesTamely_of g.backend g.quoted
  have hranks := ranksAlternatives_of_quotesByDollars hg
  rw [closing]
  rcases eq_of_mem_artifacts hg hartifact with ⟨hbackend, rfl⟩ | ⟨hbackend, op, rfl⟩
  · rw [hbackend]
    exact Postgres.dollarQuoted_pair hd hranks hs _ (hd.fold _ (tameName_stem hs))
  · rw [hbackend]
    exact H2.dollarQuoted_trigger hd hranks hs op

/-- The code of no artifact is quoted where the name of the table has two dollar signs. -/
theorem not_dollarQuoted_artifacts (hg : g.QuotesByDollars) {opening closing : String}
    (h : ¬ SingleDollars (g.dialect.tableName set.entity).toList) :
    ∀ artifact ∈ g.artifacts set, ¬ DollarQuoted opening closing artifact.source := by
  intro artifact hartifact
  rcases eq_of_mem_artifacts hg hartifact with ⟨-, rfl⟩ | ⟨-, op, rfl⟩
  · exact Postgres.not_dollarQuoted_pair _ _ h
  · exact H2.not_dollarQuoted_trigger op h

end Generator

/-- No name of the model, no type declared in it and no table of the settings has two dollar
signs in a row. -/
structure WithoutDollarQuotes (m : Model) (settings : Settings) : Prop where
  names : ∀ e ∈ m.all, ∀ name ∈ e.names, SingleDollars name.toList
  types : ∀ e ∈ m.all, ∀ element ∈ e.elements, SingleDollars element.type.toList
  changesTable : SingleDollars settings.changesTable.toList
  headerTable : SingleDollars settings.headerTable.toList

theorem tameName_of_isName {s : String} (hname : IsName s) (hs : SingleDollars s.toList) :
    TameName s where
  ascii := Text.isAscii_of_isName hname
  tame := by
    refine Text.tame_iff.mpr ⟨hs, fun hdollar => ?_⟩
    exact absurd (hname.initial '$' hdollar) (by decide)

theorem isName_of_check {settings : Settings} (h : settings.check = .ok ()) :
    IsName settings.changesTable ∧ IsName settings.headerTable := by
  have htable {setting table : String} (h : Settings.checkTable setting table = .ok ()) :
      IsName table := by
    unfold Settings.checkTable at h
    split at h
    · rename_i hname
      exact Naming.isName_of_checkName hname
    · cases h
  obtain ⟨_, hchanges, h⟩ := bind_eq_ok.mp h
  obtain ⟨_, hheader, -⟩ := bind_eq_ok.mp h
  exact ⟨htable hchanges, htable hheader⟩

theorem singleDollars_flagName (scope : Skip.Scope) : SingleDollars scope.flagName.toList := by
  refine (Text.tame_of_not_mem fun hdollar => ?_).singleDollars
  rw [Skip.Scope.flagName_eq, String.toList_append, List.mem_append] at hdollar
  rcases hdollar with hdollar | hdollar
  · exact absurd hdollar (by decide)
  · exact absurd (List.all_eq_true.mp scope.all_isPlain_stem _ hdollar) (by decide)

section Planned

variable {m : Model} {settings : Settings}

theorem spelling_of_withoutDollarQuotes (h : WithoutDollarQuotes m settings) :
    Plan.Spelling m TameName where
  names e he name hname :=
    tameName_of_isName (Model.isName_of_get? (Model.get?_of_mem_all he) name hname)
      (h.names e he name hname)
  append _ _ hs ht := hs.append ht
  flat _ hs := hs.flat
  mark := by decide
  locale := by decide

/-- The names and types in planned sets are those of the model. -/
theorem setTame_of_planAll {name : String} {a : Analysis} (ha : analyze m name settings = .ok a)
    (hsettings : settings.check = .ok ()) (h : WithoutDollarQuotes m settings)
    {sets : List TriggerSet} (hplan : planAll m a.descriptor settings = .ok sets)
    (hset : set ∈ sets) : SetTame set := by
  obtain ⟨-, hchanges, hheader, hflags⟩ := Plan.history_of_planAll hplan hset
  obtain ⟨hchangesName, hheaderName⟩ := isName_of_check hsettings
  -- Flags are folded, so their names have no dollar signs whatever the names in the scope have.
  refine {
    spelled := (spelling_of_withoutDollarQuotes h).plannedSet ha hplan hset
    types := fun c hc => ?_
    flags := fun flag hflag => ?_
    columnFlags := fun c hc => ?_
    changesTable := hchanges ▸ tameName_of_isName hchangesName h.changesTable
    headerTable := hheader ▸ tameName_of_isName hheaderName h.headerTable }
  · rcases Plan.types_of_planAll ha hplan hset c hc with ⟨e, he, element, helement, htype⟩ | htype
    · rw [htype]
      exact h.types e he element helement
    · have hall : ∀ type ∈ ["cds.Association", "cds.Composition"], SingleDollars type.toList := by
        decide
      exact hall _ htype
  · obtain ⟨scope, rfl⟩ := hflags flag hflag
    exact singleDollars_flagName scope
  · obtain ⟨scope, hscope⟩ := Plan.skipFlags_of_planAll hplan hset c hc
    rw [hscope]
    exact singleDollars_flagName scope

/-- The code in all artifacts of an analyzed entity is quoted, and so is that of each single
trigger, unless a name, a type or a table setting has two dollar signs in a row. -/
theorem dollarQuoted_entityArtifacts {g : Generator} {name : String} {a : Analysis}
    (ha : analyze m name settings = .ok a) (hsettings : settings.check = .ok ())
    (h : WithoutDollarQuotes m settings) (hg : g.QuotesByDollars) :
    ∃ sets, planAll m a.descriptor settings = .ok sets ∧
      g.entityArtifacts m a.descriptor settings = .ok (sets.flatMap g.artifacts) ∧
      ∀ set ∈ sets,
        (∀ artifact ∈ g.artifacts set, DollarQuoted " AS " g.closing artifact.source) ∧
        ∀ op, DollarQuoted " AS " g.closing (g.trigger set op).source := by
  obtain ⟨sets, hplan, hartifacts⟩ := Generator.entityArtifacts_of_analyze ha g
  refine ⟨sets, hplan, hartifacts, fun set hset => ?_⟩
  have hs := setTame_of_planAll ha hsettings h hplan hset
  exact ⟨Generator.dollarQuoted_artifacts hg hs, Generator.dollarQuoted_trigger hg hs⟩

end Planned

/-- Orders under the given name, with an amount that is tracked. -/
def trackedOrders (name : String) : Schema.Entity where
  name := name
  elements := [
    { name := "ID", isKey := true },
    { name := "amount", directive := some (.marker true) }]

/-- Orders under a plain name. -/
def ordersModel : Model where
  entities := NameMap.ofList [("shop.Orders", trackedOrders "shop.Orders")]
  checked := by decide

theorem exists_planned_orders : ∃ a sets, analyze ordersModel "shop.Orders" {} = .ok a ∧
    planAll ordersModel a.descriptor {} = .ok sets ∧ sets.map (·.entity) = ["shop.Orders"] := by
  have hplanned : ((analyze ordersModel "shop.Orders" {}).bind fun a =>
      (planAll ordersModel a.descriptor {}).map (List.map (·.entity))) = .ok ["shop.Orders"] := by
    decide +kernel
  obtain ⟨a, ha, hplanned⟩ := bind_eq_ok.mp hplanned
  obtain ⟨sets, hplan, hentities⟩ := map_eq_ok.mp hplanned
  exact ⟨a, sets, ha, hplan, hentities⟩

/-- The code of the triggers on orders is quoted. -/
theorem dollarQuoted_orders : ∃ a sets, analyze ordersModel "shop.Orders" {} = .ok a ∧
    planAll ordersModel a.descriptor {} = .ok sets ∧ sets.map (·.entity) = ["shop.Orders"] ∧
    Generator.entityArtifacts ⟨.h2, false⟩ ordersModel a.descriptor {} =
      .ok (sets.flatMap (Generator.artifacts ⟨.h2, false⟩)) ∧
    ∀ set ∈ sets,
      (∀ artifact ∈ Generator.artifacts ⟨.h2, false⟩ set,
        DollarQuoted " AS " (Generator.closing ⟨.h2, false⟩) artifact.source) ∧
      ∀ op, DollarQuoted " AS " (Generator.closing ⟨.h2, false⟩)
        (Generator.trigger ⟨.h2, false⟩ set op).source := by
  obtain ⟨a, sets, ha, hplan, hentities⟩ := exists_planned_orders
  obtain ⟨_, hplan', hartifacts, hquoted⟩ := dollarQuoted_entityArtifacts
    (g := ⟨.h2, false⟩) ha (by decide +kernel)
    ⟨by decide +kernel, by decide +kernel, by decide +kernel, by decide +kernel⟩ (.inr rfl)
  rw [hplan] at hplan'
  cases hplan'
  exact ⟨a, sets, ha, hplan, hentities, hartifacts, hquoted⟩

/-- Orders under a name with two dollar signs in a row. -/
def dollarOrdersModel : Model where
  entities := NameMap.ofList [("shop.Big$$Orders", trackedOrders "shop.Big$$Orders")]
  checked := by decide

/-- The code of the triggers on these orders is not quoted, though the model is accepted. -/
theorem dollarOrders_not_quoted : ∃ a sets,
    analyze dollarOrdersModel "shop.Big$$Orders" {} = .ok a ∧
    Settings.check {} = .ok () ∧ planAll dollarOrdersModel a.descriptor {} = .ok sets ∧
    ∀ g : Generator, g.QuotesByDollars →
      g.entityArtifacts dollarOrdersModel a.descriptor {} = .ok (sets.flatMap g.artifacts) ∧
      sets.flatMap g.artifacts ≠ [] ∧
      ∀ artifact ∈ sets.flatMap g.artifacts,
        ¬ DollarQuoted " AS " g.closing artifact.source := by
  have hplanned : ((analyze dollarOrdersModel "shop.Big$$Orders" {}).toOption.bind fun a =>
      (planAll dollarOrdersModel a.descriptor {}).toOption).map
        (fun sets => sets.map fun set => (set.entity, set.operations)) =
          some [("shop.Big$$Orders", [.create, .update, .delete])] := by decide +kernel
  cases ha : analyze dollarOrdersModel "shop.Big$$Orders" {} with
  | error fault =>
      rw [ha] at hplanned
      cases hplanned
  | ok a =>
      obtain ⟨sets, hplan⟩ := Plan.exists_planAll ha {}
      rw [ha] at hplanned
      simp only [Except.toOption, Option.bind_some, hplan, Option.map_some, Option.some.injEq,
        List.map_eq_singleton_iff] at hplanned
      obtain ⟨set, rfl, hset⟩ := hplanned
      obtain ⟨hentity, hoperations⟩ := Prod.mk.inj hset
      refine ⟨a, [set], rfl, by decide +kernel, hplan, fun g hg => ?_⟩
      obtain ⟨_, hplan', hartifacts⟩ := Generator.entityArtifacts_of_analyze ha g
      rw [hplan] at hplan'
      cases hplan'
      -- The table is named outside the quotes, so the code itself need not be evaluated.
      have htable : ¬ SingleDollars (g.dialect.tableName set.entity).toList := by
        rw [hentity]
        obtain ⟨backend, quoted⟩ := g
        cases backend <;> cases quoted <;> decide +kernel
      rw [List.flatMap_singleton] at hartifacts ⊢
      refine ⟨hartifacts, ?_, Generator.not_dollarQuoted_artifacts hg htable⟩
      rw [Generator.artifacts]
      rcases hg with hbackend | hbackend
      · rw [hbackend]
        dsimp only
        rw [Postgres.combined, hoperations]
        exact List.cons_ne_nil _ _
      · rw [hbackend, hoperations]
        exact List.cons_ne_nil _ _

end ChangeTracking.Script
