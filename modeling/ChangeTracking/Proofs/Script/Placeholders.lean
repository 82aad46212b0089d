import ChangeTracking.Proofs.Script.Values
import ChangeTracking.Proofs.Sql.Recording
import ChangeTracking.Script.H2

/-!
# Parameters of H2 statements

The class of an H2 trigger binds the parameters of a statement in the order in which they were
noted.  So a statement says what it is meant to say if its question marks stand for them in this
order: with the host expressions in the places of the question marks it must be the statement
that a dialect writes which puts the expressions there itself.
-/

namespace ChangeTracking.Script

open Plan (Expr Guard Identity Operation TrackedColumn Transition TriggerSet)
open Sql (Dialect Fragment Recorder)
open Sql.Dialect (h2)
open Sql.Recorder (Writes expr parameter conditions filterConditions guard writes_expr
  writes_guard writes_pure run_mapM)
open Text (Unmarked filled)

/-! ## Programs -/

namespace H2

/-- Write the condition that columns have the given values. -/
def whereProgram (quoted : Bool) (filters : List (String × Expr)) : Recorder String :=
  conditions (filterConditions quoted filters)

/-- Write the query for the identifier of the header. -/
def selectHeaderProgram (quoted : Bool) (set : TriggerSet) (key : Expr) : Recorder String := do
  let condition ← whereProgram quoted (historyFilters set key)
  pure ("SELECT " ++ (h2 quoted).columnName "ID" ++ " FROM "
    ++ (h2 quoted).tableName set.headerTable ++ " WHERE " ++ condition)

/-- Write the insert of a row with the values. -/
def insertProgram (quoted : Bool) (table : String) (columns : List String)
    (values : List (Recorder String)) : Recorder String := do
  let texts ← values.mapM id
  pure ("INSERT INTO " ++ (h2 quoted).tableName table ++ " (" ++ columnList (h2 quoted) columns
    ++ ") VALUES (" ++ ", ".intercalate texts ++ ")")

/-- The acting user. -/
def userText : String := "COALESCE(" ++ Sql.userVariable "changelog.user" ++ ", CURRENT_USER)"

/-- Write the insert of a header.  Its identifier is written ahead of the other values. -/
def insertHeaderProgram (quoted : Bool) (set : TriggerSet) (key : Expr) : Recorder String := do
  let id ← parameter headerLocal
  insertProgram quoted set.headerTable headerColumns
    [pure id, pure (Text.sqlLiteral set.entity), expr quoted key,
      pure (Text.sqlLiteral (serviceName set)), pure "CURRENT_TIMESTAMP", pure userText]

/-- Write the values of a change record in the order of its columns. -/
def changePrograms (quoted : Bool) (set : TriggerSet) (column : TrackedColumn) (op : Operation)
    (identity : Identity) (header : Expr) : List (Recorder String) :=
  let transition := column.transition op
  let rootEntity : Expr :=
    match identity.rootEntity with
    | some entity => .text entity
    | none => .null
  [pure "RANDOM_UUID()", pure (Text.sqlLiteral column.name), expr quoted transition.before,
    expr quoted transition.after, expr quoted transition.labelBefore,
    expr quoted transition.labelAfter, pure (Text.sqlLiteral set.entity),
    expr quoted identity.entityKey, expr quoted rootEntity, expr quoted identity.rootKey,
    expr quoted identity.objectId, expr quoted identity.rootObjectId,
    pure (Text.sqlLiteral column.type), pure (Text.sqlLiteral op.modification),
    pure "CURRENT_TIMESTAMP", pure userText, pure (Sql.userVariable "changelog.transaction"),
    expr quoted header]

/-- Write the insert of a change record. -/
def insertChangeProgram (quoted : Bool) (set : TriggerSet) (column : TrackedColumn)
    (op : Operation) (identity : Identity) (header : Expr) : Recorder String :=
  insertProgram quoted set.changesTable changeColumns
    (changePrograms quoted set column op identity header)

/-- Write a delete of the history of a key. -/
def deleteProgram (quoted : Bool) (set : TriggerSet) (key : Expr) (table : String) :
    Recorder String := do
  let condition ← whereProgram quoted (historyFilters set key)
  pure ("DELETE FROM " ++ (h2 quoted).tableName table ++ " WHERE " ++ condition)

/-- The deletes that remove the history of a key, each written for itself. -/
def purgePrograms (quoted : Bool) (set : TriggerSet) (key : Expr) : List (Recorder String) :=
  [set.changesTable, set.headerTable].map (deleteProgram quoted set key)

/-! ## What the programs write -/

section Writing

variable {quoted : Bool} {set : TriggerSet}

attribute [local simp] Fragment.sent_append Fragment.sent_ofText Fragment.sent_join
  Fragment.parameters_join

theorem writes_where (filters : List (String × Expr)) :
    Writes (whereProgram quoted filters) (whereClause (h2 quoted) filters) := by
  refine Sql.Recorder.writes_conditions ?_
  rw [Sql.Recorder.filterConditions_eq_map, List.forall₂_map_left_iff, List.forall₂_map_right_iff]
  exact List.forall₂_same.mpr fun f _ => (writes_expr f.2).condition f.1

theorem writes_selectHeader (key : Expr) :
    Writes (selectHeaderProgram quoted set key) (selectHeader (h2 quoted) set key) := by
  intro noted
  simp [selectHeaderProgram, selectHeader, writes_where _ _]

theorem writes_delete (key : Expr) (table : String) : Writes (deleteProgram quoted set key table)
    (.ofText ("DELETE FROM " ++ (h2 quoted).tableName table ++ " WHERE ")
      ++ whereClause (h2 quoted) (historyFilters set key)) := by
  intro noted
  simp [deleteProgram, writes_where _ _]

theorem writes_user : Writes (pure userText) (h2 quoted).currentUser := by
  have huser : (h2 quoted).currentUser = Dialect.coalesce
    [.ofText (Sql.userVariable "changelog.user"), .ofText "CURRENT_USER"] := rfl
  intro noted
  simp [huser, userText, Dialect.coalesce, String.append_assoc]

theorem writes_insert (table : String) (columns : List String) {values : List (Recorder String)}
    {fs : List Fragment} (h : List.Forall₂ Writes values fs) :
    Writes (insertProgram quoted table columns values)
      (insertRow (h2 quoted) table columns fs) := by
  intro noted
  simp [insertProgram, insertRow, run_mapM h]

theorem writes_insertChange (column : TrackedColumn) (op : Operation) (identity : Identity)
    (header : Expr) : Writes (insertChangeProgram quoted set column op identity header)
      (insertChange (h2 quoted) set column op identity header) := by
  refine writes_insert _ _ ?_
  simp only [changePrograms, changeValues, List.forall₂_cons]
  exact ⟨writes_pure _, writes_pure _, writes_expr _, writes_expr _, writes_expr _, writes_expr _,
    writes_pure _, writes_expr _, writes_expr _, writes_expr _, writes_expr _, writes_expr _,
    writes_pure _, writes_pure _, writes_pure _, writes_user, writes_pure _, writes_expr _, .nil⟩

/-- The identifier is the first parameter that is noted, and the first value in the text. -/
theorem writes_insertHeader (key : Expr) : Writes (insertHeaderProgram quoted set key)
    (insertHeader (h2 quoted) set ((h2 quoted).localValue headerLocal) key) := by
  have hid : Writes (parameter headerLocal) ((h2 quoted).localValue headerLocal) :=
    Sql.Recorder.writes_parameter headerLocal
  -- Only the text of the identifier goes into the row: its parameter has been noted by then.
  generalize (h2 quoted).localValue headerLocal = id at hid ⊢
  have hvalues : List.Forall₂ Writes [pure id.sent, pure (Text.sqlLiteral set.entity),
      expr quoted key, pure (Text.sqlLiteral (serviceName set)), pure "CURRENT_TIMESTAMP",
      pure userText] (headerValues (h2 quoted) set (.ofText id.sent) key) := by
    simp only [headerValues, List.forall₂_cons]
    exact ⟨writes_pure _, writes_pure _, writes_expr _, writes_pure _, writes_pure _, writes_user,
      .nil⟩
  have hinsert : Writes (insertProgram quoted set.headerTable headerColumns _) _ :=
    writes_insert set.headerTable headerColumns hvalues
  intro noted
  rw [insertHeaderProgram, StateT.run_bind, hid noted, pure_bind, hinsert]
  simp [insertHeader, insertRow, headerValues]

end Writing

end H2

/-! ## Host expressions in place of parameters -/

section Inlining

variable {quoted : Bool} {set : TriggerSet}

open Sql (render_inlined)

theorem whereClause_inlined (filters : List (String × Expr)) :
    whereClause (h2 quoted).inlined filters = (whereClause (h2 quoted) filters).inline := by
  rw [whereClause, whereClause, Fragment.inline_join, List.map_map]
  refine congrArg _ (List.map_congr_left fun f _ => ?_)
  rw [render_inlined, Function.comp_apply, Fragment.inline_append]
  rfl

theorem insertRow_inlined (table : String) (columns : List String) (fs : List Fragment) :
    insertRow (h2 quoted).inlined table columns (fs.map Fragment.inline) =
      (insertRow (h2 quoted) table columns fs).inline := by
  rw [insertRow, insertRow, Fragment.inline_append, Fragment.inline_append, Fragment.inline_join]
  rfl

theorem insertHeader_inlined (id : Fragment) (key : Expr) :
    insertHeader (h2 quoted).inlined set id.inline key =
      (insertHeader (h2 quoted) set id key).inline := by
  rw [insertHeader, insertHeader, ← insertRow_inlined, headerValues, render_inlined]
  rfl

theorem insertChange_inlined (column : TrackedColumn) (op : Operation) (identity : Identity)
    (header : Expr) : insertChange (h2 quoted).inlined set column op identity header =
      (insertChange (h2 quoted) set column op identity header).inline := by
  rw [insertChange, insertChange, ← insertRow_inlined, changeValues]
  simp only [render_inlined]
  rfl

theorem delete_inlined (key : Expr) (table : String) :
    .ofText ("DELETE FROM " ++ (h2 quoted).inlined.tableName table ++ " WHERE ")
        ++ whereClause (h2 quoted).inlined (historyFilters set key) =
      (.ofText ("DELETE FROM " ++ (h2 quoted).tableName table ++ " WHERE ")
        ++ whereClause (h2 quoted) (historyFilters set key) : Fragment).inline := by
  rw [whereClause_inlined, Fragment.inline_append]
  rfl

theorem selectHeader_inlined (key : Expr) : H2.selectHeader (h2 quoted).inlined set key =
    (H2.selectHeader (h2 quoted) set key).inline := by
  rw [H2.selectHeader, whereClause_inlined, H2.selectHeader, Fragment.inline_append]
  rfl

end Inlining

/-! ## Question marks of their own -/

/-- The names and the texts in the set have no question marks. -/
structure SetUnmarked (s : TriggerSet) : Prop where
  spelled : s.IsSpelled Unmarked
  types : ∀ c ∈ s.columns, Unmarked c.type
  changesTable : Unmarked s.changesTable
  headerTable : Unmarked s.headerTable

section Marks

open Sql (isUnmarked_render)
open Sql.Dialect (unmarked_columnName unmarked_tableName)
open Sql.Fragment (isUnmarked_ofText isUnmarked_join)

variable {quoted : Bool} {set : TriggerSet}

theorem isUnmarked_whereClause {filters : List (String × Expr)}
    (h : ∀ f ∈ filters, Unmarked f.1 ∧ f.2.IsSpelled Unmarked) :
    (whereClause (h2 quoted) filters).IsUnmarked := by
  refine isUnmarked_join (by decide) (List.forall_mem_map.mpr fun f hf => ?_)
  obtain ⟨hname, hvalue⟩ := h f hf
  simpa +decide using And.intro (unmarked_columnName hname) (isUnmarked_render hvalue)

theorem isUnmarked_insertRow {table : String} (htable : Unmarked table) {columns : List String}
    (hcolumns : ∀ column ∈ columns, Unmarked column) {values : List Fragment}
    (hvalues : ∀ value ∈ values, value.IsUnmarked) :
    (insertRow (h2 quoted) table columns values).IsUnmarked := by
  have hnames : Unmarked (columnList (h2 quoted) columns) :=
    Text.unmarked_intercalate (by decide)
      (List.forall_mem_map.mpr fun column hcolumn => unmarked_columnName (hcolumns column hcolumn))
  have hjoin : (Fragment.join ", " values).IsUnmarked := isUnmarked_join (by decide) hvalues
  simpa +decide [insertRow] using And.intro (And.intro (unmarked_tableName htable) hnames) hjoin

theorem isUnmarked_currentUser : (h2 quoted).currentUser.IsUnmarked := by
  have huser : (h2 quoted).currentUser = Dialect.coalesce
    [.ofText (Sql.userVariable "changelog.user"), .ofText "CURRENT_USER"] := rfl
  simp +decide [huser, Dialect.coalesce, Fragment.join]

theorem shows_isUnmarked : Shows (h2 quoted) Unmarked Fragment.IsUnmarked where
  render _ h := isUnmarked_render h
  literal _ h := isUnmarked_ofText.mpr h.sqlLiteral
  freshId := isUnmarked_ofText.mpr (show Unmarked "RANDOM_UUID()" by decide)
  now := isUnmarked_ofText.mpr (show Unmarked "CURRENT_TIMESTAMP" by decide)
  currentUser := isUnmarked_currentUser
  transactionId := isUnmarked_ofText.mpr (Sql.unmarked_userVariable _)
  modification op := by cases op <;> decide

section Sets

variable (hs : SetUnmarked set)

include hs

theorem isUnmarked_historyFilters {key : Expr} (hkey : key.IsSpelled Unmarked) :
    (whereClause (h2 quoted) (historyFilters set key)).IsUnmarked :=
  isUnmarked_whereClause (isSpelled_historyFilters (by decide) (by decide) hs.spelled hkey)

theorem isUnmarked_insertHeader {id : Fragment} (hid : id.IsUnmarked) {key : Expr}
    (hkey : key.IsSpelled Unmarked) : (insertHeader (h2 quoted) set id key).IsUnmarked :=
  isUnmarked_insertRow hs.headerTable (by decide)
    (shows_isUnmarked.headerValues hs.spelled hid hkey)

theorem isUnmarked_insertChange {column : TrackedColumn} (hcolumn : column ∈ set.columns)
    (op : Operation) {identity : Identity} (hidentity : identity.IsSpelled Unmarked)
    {header : Expr} (hheader : header.IsSpelled Unmarked) :
    (insertChange (h2 quoted) set column op identity header).IsUnmarked := by
  have htype := (hs.types column hcolumn).sqlLiteral
  exact isUnmarked_insertRow hs.changesTable (by decide)
    (shows_isUnmarked.changeValues hs.spelled hcolumn (isUnmarked_ofText.mpr htype) op hidentity
      hheader)

theorem isUnmarked_delete {table : String} (htable : Unmarked table) {key : Expr}
    (hkey : key.IsSpelled Unmarked) :
    (.ofText ("DELETE FROM " ++ (h2 quoted).tableName table ++ " WHERE ")
      ++ whereClause (h2 quoted) (historyFilters set key) : Fragment).IsUnmarked := by
  have hcondition : (whereClause (h2 quoted) (historyFilters set key)).IsUnmarked :=
    isUnmarked_historyFilters hs hkey
  simpa +decide using And.intro (unmarked_tableName htable) hcondition

theorem isUnmarked_selectHeader {key : Expr} (hkey : key.IsSpelled Unmarked) :
    (H2.selectHeader (h2 quoted) set key).IsUnmarked := by
  have hid : Unmarked ((h2 quoted).columnName "ID") := unmarked_columnName (by decide)
  have hcondition : (whereClause (h2 quoted) (historyFilters set key)).IsUnmarked :=
    isUnmarked_historyFilters hs hkey
  simpa +decide [H2.selectHeader] using
    And.intro (And.intro hid (unmarked_tableName hs.headerTable)) hcondition

end Sets

end Marks

/-! ## Alignment -/

/-- The program, started with nothing noted, writes the statement and notes its parameters.  There
are as many question marks as parameters, and with the host expressions in their places, from
left to right, the statement is the other one. -/
structure Aligned (w : Recorder String) (statement spliced : Fragment) : Prop where
  recorded : (w.run []).run = (statement.sent, statement.parameters)
  count : statement.sent.toList.count '?' = statement.parameters.length
  filled : filled statement.sent statement.parameters = spliced.sent

theorem aligned_of_writes {w : Recorder String} {f spliced : Fragment} (hw : Writes w f)
    (hf : f.IsUnmarked) (hspliced : spliced = f.inline) : Aligned w f spliced where
  recorded := by rw [hw, List.nil_append]; rfl
  count := hf.count_sent
  filled := by rw [hf.filled_sent, hspliced, Fragment.sent_inline]

namespace H2

/-- The parameters of the statements that the class issues are aligned. -/
structure StatementsAligned (quoted : Bool) (set : TriggerSet) : Prop where
  selectHeader : let key := Expr.variable Identity.entityKeyName
    Aligned (selectHeaderProgram quoted set key) (selectHeader (h2 quoted) set key)
      (selectHeader (h2 quoted).inlined set key)
  insertHeader : let key := Expr.variable Identity.entityKeyName
    Aligned (insertHeaderProgram quoted set key)
      (insertHeader (h2 quoted) set ((h2 quoted).localValue headerLocal) key)
      (insertHeader (h2 quoted).inlined set ((h2 quoted).inlined.localValue headerLocal) key)
  insertChange : ∀ column ∈ set.columns, ∀ op : Operation,
    let locals := (set.identity op.subject).fromLocals
    Aligned (insertChangeProgram quoted set column op locals (.variable headerLocal))
      (insertChange (h2 quoted) set column op locals (.variable headerLocal))
      (insertChange (h2 quoted).inlined set column op locals (.variable headerLocal))
  purge : ∀ op : Operation, let key := (set.identity op.subject).fromLocals.entityKey
    List.Forall₂ (fun w statements => Aligned w statements.1 statements.2)
      (purgePrograms quoted set key)
      ((purgeStatements (h2 quoted) set key).zip (purgeStatements (h2 quoted).inlined set key))

variable {quoted : Bool} {set : TriggerSet}

theorem statementsAligned (hs : SetUnmarked set) : StatementsAligned quoted set where
  selectHeader :=
    aligned_of_writes (writes_selectHeader _)
      (isUnmarked_selectHeader hs (Expr.isSpelled_ofLocal (by decide))) (selectHeader_inlined _)
  insertHeader :=
    aligned_of_writes (writes_insertHeader _)
      (isUnmarked_insertHeader hs (Sql.isUnmarked_parameter _)
        (Expr.isSpelled_ofLocal (by decide)))
      (insertHeader_inlined _ _)
  insertChange column hcolumn op :=
    aligned_of_writes (writes_insertChange column op _ _)
      (isUnmarked_insertChange hs hcolumn op (isSpelled_fromLocals (by decide) hs.spelled _)
        (Expr.isSpelled_ofLocal (by decide)))
      (insertChange_inlined column op _ _)
  purge op := by
    have hkey : (set.identity op.subject).fromLocals.entityKey.IsSpelled Unmarked :=
      (isSpelled_fromLocals (by decide) hs.spelled _).values _ List.mem_cons_self
    have hdelete {table : String} (htable : Unmarked table) :
        Aligned (deleteProgram quoted set _ table) _ _ :=
      aligned_of_writes (writes_delete _ table) (isUnmarked_delete hs htable hkey)
        (delete_inlined _ table)
    exact .cons (hdelete hs.changesTable) (.cons (hdelete hs.headerTable) .nil)

/-- The parameters of whatever the H2 dialect writes are aligned with their question marks, if
the names and the texts in it have no question marks of their own. -/
theorem parameters_aligned (quoted : Bool) :
    (∀ e : Expr, e.IsSpelled Unmarked →
      Aligned (expr quoted e) ((h2 quoted).render e) ((h2 quoted).inlined.render e)) ∧
    (∀ g : Guard, (∀ e ∈ g.values, e.IsSpelled Unmarked) →
      Aligned (guard quoted g) ((h2 quoted).renderGuard g)
        ((h2 quoted).inlined.renderGuard g)) ∧
    (∀ filters : List (String × Expr), (∀ f ∈ filters, Unmarked f.1 ∧ f.2.IsSpelled Unmarked) →
      Aligned (whereProgram quoted filters) (whereClause (h2 quoted) filters)
        (whereClause (h2 quoted).inlined filters)) ∧
    ∀ set : TriggerSet, SetUnmarked set → StatementsAligned quoted set := by
  refine ⟨fun e he => ?_, fun g hg => ?_, fun filters hfilters => ?_, fun set hs => ?_⟩
  · exact aligned_of_writes (writes_expr e) (Sql.isUnmarked_render he) (Sql.render_inlined e)
  · exact aligned_of_writes (writes_guard g) (Sql.isUnmarked_renderGuard hg)
      (Sql.renderGuard_inlined g)
  · exact aligned_of_writes (writes_where filters) (isUnmarked_whereClause hfilters)
      (whereClause_inlined filters)
  · exact statementsAligned hs

/-! ### Items of orders -/

/-- The name of a product, or its number where it has no name. -/
def productLabel : Expr :=
  .firstOf [
    .lookup "shop.Products" "name" [("ID", .column .subject "product_ID")],
    .encoded .truncated (.column .subject "product_ID")]

/-- The items of orders, each in the history of its order. -/
def itemTriggers : TriggerSet where
  entity := "shop.Items"
  collection := some "items"
  service := some "shop.Service.Items"
  primaryKey := ["order_ID", "pos"]
  key := Plan.encodeKey ["order_ID", "pos"] .subject
  identifier := some (.listJoin [.column .subject "pos", productLabel])
  owner := some {
    entity := "shop.Orders"
    key := Plan.encodeKey ["order_ID"] .subject
    identifier := some (.lookup "shop.Orders" "title" [("ID", .column .subject "order_ID")]) }
  columns := [{
    name := "product"
    type := "cds.Association"
    watched := ["product_ID"]
    value := Plan.encodeKey ["product_ID"] .subject
    label := some productLabel
    skipFlag := "changelog.skip" }]
  operations := Operation.all
  deletePolicy := .preserve
  skipFlags := ["changelog.skip"]
  changesTable := "changelog.Changes"
  headerTable := "changelog.ChangeLog"

theorem setUnmarked_itemTriggers : SetUnmarked itemTriggers where
  spelled := {
    entity := by decide
    collection := by rintro _ ⟨⟩; decide
    service := by rintro _ ⟨⟩; decide
    owner := by rintro _ ⟨⟩; decide
    columns := by decide
    watched := by decide
    expressions := by decide }
  types := by decide
  changesTable := by decide
  headerTable := by decide

/-- The product of an item has another label. -/
def productChanged : Guard := .changed (productLabel.bind .old) (productLabel.bind .new)

/-- A product is shown, compared and recorded with its parameters in the right places. -/
theorem parameters_aligned_items :
    Aligned (expr false productLabel) ((h2 false).render productLabel)
        ((h2 false).inlined.render productLabel) ∧
      Aligned (guard false productChanged) ((h2 false).renderGuard productChanged)
        ((h2 false).inlined.renderGuard productChanged) ∧
      Aligned (whereProgram false (historyFilters itemTriggers productLabel))
        (whereClause (h2 false) (historyFilters itemTriggers productLabel))
        (whereClause (h2 false).inlined (historyFilters itemTriggers productLabel)) ∧
      StatementsAligned false itemTriggers := by
  obtain ⟨hexpr, hguard, hwhere, hset⟩ := parameters_aligned false
  exact ⟨hexpr _ (by decide), hguard _ (by decide), hwhere _ (by decide),
    hset _ setUnmarked_itemTriggers⟩

/-- The number of the product stands in the label four times. -/
example : ((h2 false).render productLabel).parameters =
    List.replicate 4 "value(newRow, \"PRODUCT_ID\")" := by decide +kernel

end H2

end ChangeTracking.Script
