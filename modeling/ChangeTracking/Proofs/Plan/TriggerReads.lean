import ChangeTracking.Proofs.Plan.Policies
import ChangeTracking.Proofs.Plan.RowSafety
import Mathlib.Control.Monad.Basic

/-!
# Rows that triggers read

A planned set is written over the row to be bound: its key, its identifier, its owner and
its columns read no other row and no local, at any depth.  Everything that the trigger of
an operation evaluates is bound to rows that the operation has.  So a create reads the new
row alone, a delete the old one alone, an update these two, and none of them is left with
a row that is still to be bound.
-/

namespace ChangeTracking.Plan

open Schema (Model)
open Tracking (Descriptor IdentityField RootLink analyze)

/-! ## Whole sets over the row to be bound -/

/-- How the owner is identified depends on the row to be bound alone. -/
structure Owner.OnSubject (o : Owner) : Prop where
  key : o.key.OnRow .subject
  identifier : ∀ e, o.identifier = some e → e.OnRow .subject

/-- Whatever the set evaluates depends on the row to be bound alone. -/
structure TriggerSet.OnSubject (s : TriggerSet) : Prop where
  key : s.key.OnRow .subject
  identifier : ∀ e, s.identifier = some e → e.OnRow .subject
  owner : ∀ o, s.owner = some o → o.OnSubject
  columns : ∀ c ∈ s.columns, c.OnSubject

variable {row : RowRole}

theorem onRow_joinedKey {parts : List Expr} (h : ∀ e ∈ parts, e.OnRow row) :
    (joinedKey parts).OnRow row := by
  unfold joinedKey
  split
  · exact h _ (List.mem_singleton_self _)
  · exact Expr.onRow_keyJoin.mpr h

theorem onRow_linkOrigin (child : String) (childKey : List String) (link : RootLink) :
    (linkOrigin child childKey link).OnRow .subject := by
  have hrow : (Origin.row .subject).OnRow .subject := rfl
  cases link with
  | foreignKeys joins => exact hrow
  | backReference field joins => exact hrow.readBack child childKey

theorem onSubject_owner {m : Model} {child rootName : String} {childKey : List String}
    {link : RootLink} {fields : List IdentityField} {o : Owner}
    (h : owner m child childKey rootName link fields = .ok o) : o.OnSubject := by
  obtain ⟨root, -, hkey, hidentifier⟩ := parts_of_owner h
  have horigin := onRow_linkOrigin child childKey link
  refine ⟨?_, fun e he => ?_⟩
  · rw [hkey]
    apply onRow_joinedKey
    intro e he
    obtain ⟨join, -, rfl⟩ := List.mem_map.mp he
    exact Expr.onRow_encoded.mpr (horigin.read join.source)
  · rw [hidentifier] at he
    refine onRow_identifier ?_ m root fields _ e he
    intro f hf
    obtain ⟨join, -, rfl⟩ := List.mem_map.mp hf
    exact horigin.read join.source

theorem onSubject_of_planAll {m : Model} {d : Descriptor} {settings : Settings}
    {sets : List TriggerSet} (h : planAll m d settings = .ok sets) {set : TriggerSet}
    (hset : set ∈ sets) : set.OnSubject := by
  have hrow : (Origin.row .subject).OnRow .subject := rfl
  obtain ⟨hkey, ⟨entity, fields, hidentifier⟩, howner⟩ := identity_of_planAll h hset
  refine ⟨?_, fun e he => ?_, fun o ho => ?_, fun c hc => onSubject_of_mem_planAll h hset hc⟩
  · rw [hkey]
    exact onRow_encodeKey set.primaryKey .subject
  · rw [hidentifier] at he
    exact onRow_identifier hrow m entity fields set.primaryKey e he
  · obtain ⟨rootName, link, rootFields, ho⟩ := howner o ho
    exact onSubject_owner ho

/-! ## Rows of an operation -/

/-- The rows that the trigger of an operation has. -/
def Operation.rows : Operation → List RowRole
  | .create => [.new]
  | .update => [.old, .new]
  | .delete => [.old]

/-- The expression itself reads none but the given rows, and no local. -/
def ReadsAmong (rows : List RowRole) : Expr → Prop
  | .column role _ => role ∈ rows
  | .variable _ => False
  | _ => True

instance (rows : List RowRole) : DecidablePred (ReadsAmong rows)
  | .column role _ =>
      decidable_of_decidable_of_iff (p := rows.contains role = true) List.contains_iff_mem
  | .variable _ => isFalse id
  | .null | .text _ | .locale | .lookup .. | .keyJoin _ | .listJoin _ | .firstOf _ | .encoded .. =>
      isTrue trivial

/-- At every depth the expression reads none but the given rows, and no local. -/
def Expr.OnRows (rows : List RowRole) (e : Expr) : Prop := e.Everywhere (ReadsAmong rows)

instance (rows : List RowRole) : DecidablePred (Expr.OnRows rows) :=
  fun e => inferInstanceAs (Decidable (e.Everywhere (ReadsAmong rows)))

namespace Expr

variable {rows : List RowRole}

theorem OnRow.onRows {e : Expr} (h : e.OnRow row) (hrow : row ∈ rows) : e.OnRows rows := by
  refine h.mono ?_
  intro t ht
  cases t with
  | column role name =>
      have hrole : role = row := ht
      subst hrole
      exact hrow
  | _ => exact ht

theorem onRows_null : OnRows rows .null := everywhere_null.mpr trivial

theorem onRows_column {role : RowRole} {name : String} (h : role ∈ rows) :
    OnRows rows (.column role name) := everywhere_column.mpr h

/-- What reads the row to be bound reads the row that it is bound to. -/
theorem OnRow.bind {e : Expr} (h : e.OnRow .subject) (row : RowRole) : (e.bind row).OnRow row := by
  refine Everywhere.bind (fun t ht => ?_) h
  cases t with
  | column role name =>
      have hrole : role = .subject := ht
      subst hrole
      exact rfl
  | _ => exact ht

/-- The columns that decide whether a value is there stand in the row that it reads. -/
theorem OnRow.of_nullColumns {e : Expr} (h : e.OnRow row) {columns : List (RowRole × String)}
    (hcolumns : e.nullColumns = some columns) : ∀ c ∈ columns, c.1 = row :=
  Everywhere.of_nullColumns h hcolumns

end Expr

/-! ## Guards -/

/-- Every value that the guard tests reads none but the given rows, and no local. -/
def Guard.OnRows (rows : List RowRole) (g : Guard) : Prop := ∀ e ∈ g.values, e.OnRows rows

namespace Guard

variable {rows : List RowRole}

theorem onRows_any {guards : List Guard} (h : ∀ g ∈ guards, g.OnRows rows) :
    (any guards).OnRows rows := by
  intro e he
  rw [values] at he
  obtain ⟨g, hg, he⟩ := mem_allValues.mp he
  exact h g hg e he

theorem onRows_all {guards : List Guard} (h : ∀ g ∈ guards, g.OnRows rows) :
    (all guards).OnRows rows := by
  intro e he
  rw [values] at he
  obtain ⟨g, hg, he⟩ := mem_allValues.mp he
  exact h g hg e he

theorem onRows_anyOf {guards : List Guard} (h : ∀ g ∈ guards, g.OnRows rows) :
    (anyOf guards).OnRows rows := by
  unfold anyOf
  split
  · exact h _ (List.mem_singleton_self _)
  · exact onRows_any h

theorem onRows_allOf {guards : List Guard} (h : ∀ g ∈ guards, g.OnRows rows) :
    (allOf guards).OnRows rows := by
  unfold allOf
  split
  · exact h _ (List.mem_singleton_self _)
  · exact onRows_all h

theorem onRows_notNull {e : Expr} (h : e.OnRows rows) : (notNull e).OnRows rows := by
  intro value hvalue
  rw [values] at hvalue
  rw [List.mem_singleton.mp hvalue]
  exact h

theorem onRows_changed {old new : Expr} (hold : old.OnRows rows) (hnew : new.OnRows rows) :
    (changed old new).OnRows rows := by
  intro value hvalue
  simp only [values, List.mem_cons, List.not_mem_nil, or_false] at hvalue
  rcases hvalue with rfl | rfl
  · exact hold
  · exact hnew

theorem onRows_flag {name : String} : (flag name).OnRows rows := by
  intro e he
  rw [values] at he
  cases he

theorem onRows_negate {g : Guard} (h : g.OnRows rows) : (negate g).OnRows rows := by
  intro e he
  rw [values] at he
  exact h e he

/-- Whether a value is there is tested on the row that it reads. -/
theorem onRows_present {e : Expr} (h : e.OnRow row) (hrow : row ∈ rows) :
    (present e).OnRows rows := by
  unfold present
  split
  · rename_i columns hcolumns
    apply onRows_allOf
    intro g hg
    obtain ⟨c, hc, rfl⟩ := List.mem_map.mp hg
    apply onRows_notNull
    apply Expr.onRows_column
    rw [h.of_nullColumns hcolumns c hc]
    exact hrow
  · exact onRows_notNull (h.onRows hrow)

end Guard

/-! ## What a trigger evaluates -/

theorem onRow_labelOn {c : TrackedColumn} (h : c.OnSubject) (row : RowRole) :
    (c.labelOn row).OnRow row := by
  unfold TrackedColumn.labelOn
  split
  · rename_i label hlabel
    exact (h.label label hlabel).bind row
  · exact Expr.everywhere_null.mpr trivial

theorem onRows_guarded {c : TrackedColumn} (h : c.OnSubject) (op : Operation) :
    (c.guarded op).OnRows op.rows := by
  have hold : RowRole.old ∈ Operation.update.rows := by decide
  have hnew : RowRole.new ∈ Operation.update.rows := by decide
  have hcondition : (c.condition op).OnRows op.rows := by
    cases op with
    | create => exact Guard.onRows_present (h.value.bind .new) (List.mem_singleton_self _)
    | delete => exact Guard.onRows_present (h.value.bind .old) (List.mem_singleton_self _)
    | update =>
        rw [TrackedColumn.condition]
        split
        · exact Guard.onRows_changed ((h.value.bind .old).onRows hold)
            ((h.value.bind .new).onRows hnew)
        · apply Guard.onRows_anyOf
          intro g hg
          obtain ⟨name, -, rfl⟩ := List.mem_map.mp hg
          exact Guard.onRows_changed (Expr.onRows_column hold) (Expr.onRows_column hnew)
  apply Guard.onRows_allOf
  intro g hg
  simp only [List.mem_cons, List.not_mem_nil, or_false] at hg
  rcases hg with rfl | rfl
  · exact hcondition
  · exact Guard.onRows_negate Guard.onRows_flag

theorem onRows_transition {c : TrackedColumn} (h : c.OnSubject) (op : Operation) :
    ∀ e ∈ (c.transition op).toList, e.OnRows op.rows := by
  have hnull : Expr.null.OnRows op.rows := Expr.onRows_null
  have hread : ∀ row ∈ op.rows, (c.valueOn row).OnRows op.rows ∧ (c.labelOn row).OnRows op.rows :=
    fun row hrow => ⟨(h.value.bind row).onRows hrow, (onRow_labelOn h row).onRows hrow⟩
  cases op <;> simp only [TrackedColumn.transition, Transition.toList, List.forall_mem_cons]
  case create =>
    obtain ⟨hvalue, hlabel⟩ := hread .new (by decide)
    exact ⟨hnull, hvalue, hnull, hlabel, List.forall_mem_nil _⟩
  case update =>
    obtain ⟨hbefore, hlabelBefore⟩ := hread .old (by decide)
    obtain ⟨hafter, hlabelAfter⟩ := hread .new (by decide)
    exact ⟨hbefore, hafter, hlabelBefore, hlabelAfter, List.forall_mem_nil _⟩
  case delete =>
    obtain ⟨hvalue, hlabel⟩ := hread .old (by decide)
    exact ⟨hvalue, hnull, hlabel, hnull, List.forall_mem_nil _⟩

theorem TriggerSet.OnSubject.expressions {s : TriggerSet} (h : s.OnSubject) :
    ∀ e ∈ s.expressions, e.OnRow .subject :=
  TriggerSet.forall_mem_expressions.mpr ⟨h.key, h.identifier,
    fun o ho => ⟨(h.owner o ho).key, (h.owner o ho).identifier⟩,
    fun c hc => ⟨(h.columns c hc).value, (h.columns c hc).label⟩⟩

theorem onRow_identity {s : TriggerSet} (h : s.OnSubject) (row : RowRole) :
    ∀ v ∈ (s.identity row).values, v.2.OnRow row :=
  TriggerSet.forall_mem_identity row (Expr.everywhere_null.mpr trivial)
    fun e he => (h.expressions e he).bind row

namespace TriggerSet

/-- Everything that the trigger of an operation evaluates: the guard of the whole set, the
identity of the row that the operation is about, and the guard and the transition of each
column. -/
def evaluated (s : TriggerSet) (op : Operation) : List Expr :=
  s.skipGuard.values ++ (s.identity op.subject).values.map (·.2)
    ++ s.columns.flatMap fun c => (c.guarded op).values ++ (c.transition op).toList

theorem onRows_skipGuard (s : TriggerSet) (rows : List RowRole) : s.skipGuard.OnRows rows := by
  apply Guard.onRows_anyOf
  intro g hg
  obtain ⟨name, -, rfl⟩ := List.mem_map.mp hg
  exact Guard.onRows_flag

theorem OnSubject.onRows_evaluated {s : TriggerSet} (h : s.OnSubject) (op : Operation) :
    ∀ e ∈ s.evaluated op, e.OnRows op.rows := by
  have hsubject : op.subject ∈ op.rows := by cases op <;> decide
  intro e he
  rcases List.mem_append.mp he with he | he
  · rcases List.mem_append.mp he with he | he
    · exact s.onRows_skipGuard op.rows e he
    · obtain ⟨v, hv, rfl⟩ := List.mem_map.mp he
      exact (onRow_identity h op.subject v hv).onRows hsubject
  · obtain ⟨c, hc, he⟩ := List.mem_flatMap.mp he
    rcases List.mem_append.mp he with he | he
    · exact onRows_guarded (h.columns c hc) op e he
    · exact onRows_transition (h.columns c hc) op e he

end TriggerSet

/-- A planned set reads the row to be bound alone: in its key and its identifier, in the key
and the identifier of its owner, and in the value and the label of every column, without
any local and at any depth.  Once it is bound for an operation, everything that the
trigger evaluates reads none but the rows of that operation: the new row of a create, the
old row of a delete, and these two rows of an update. -/
theorem planned_set_reads_rows_of_operation {m : Model} {d : Descriptor} {settings : Settings}
    {sets : List TriggerSet} (hplan : planAll m d settings = .ok sets) {set : TriggerSet}
    (hset : set ∈ sets) :
    set.OnSubject ∧ ∀ op, ∀ e ∈ set.evaluated op, e.OnRows op.rows := by
  have hsubject := onSubject_of_planAll hplan hset
  exact ⟨hsubject, fun op => hsubject.onRows_evaluated op⟩

/-- A library: shelves with their books, which lead back to the shelf by a back reference and
are known by the translated names of their genres. -/
def libraryModel : Model where
  entities := NameMap.ofList [
    ("lib.Shelves", {
      name := "lib.Shelves"
      elements := [
        { name := "ID", isKey := true },
        { name := "room", directive := some (.marker true) },
        { name := "books", type := "cds.Composition"
          association := some {
            kind := .composition, target := "lib.Books", many := true
            on := [⟨"shelf_ID", "ID"⟩] }
          directive := some (.marker true) }]
      directive := some (.paths ["room"]) }),
    ("lib.Books", {
      name := "lib.Books"
      elements := [
        { name := "ID", isKey := true },
        { name := "shelf_ID" },
        { name := "up_", type := "cds.Association"
          association := some {
            kind := .reference, target := "lib.Shelves", on := [⟨"ID", "shelf_ID"⟩] } },
        { name := "genre", type := "cds.Association"
          association := some { kind := .reference, target := "lib.Genres", keys := ["code"] } }]
      directive := some (.paths ["genre.name"]) }),
    ("lib.Genres", {
      name := "lib.Genres"
      elements := [{ name := "code", isKey := true }, { name := "name", isLocalized := true }]
      texts := some "lib.Genres_texts" })]
  checked := by decide

/-- The set of the books of a shelf: their owner is read back from their table, and their
identifier by the translations of another one. -/
theorem bookSet_reads_rows_of_operation : ∃ analysis sets set,
    analyze libraryModel "lib.Shelves" {} = .ok analysis ∧
      planAll libraryModel analysis.descriptor {} = .ok sets ∧ set ∈ sets ∧
      set.collection = some "books" ∧ (set.evaluated .create).any Expr.hasLookup = true ∧
      set.OnSubject ∧ ∀ op, ∀ e ∈ set.evaluated op, e.OnRows op.rows := by
  -- The set of the collection comes behind the one of the shelves' own attributes.
  have hlast : ((analyze libraryModel "lib.Shelves" {}).toOption.bind fun analysis =>
      (planAll libraryModel analysis.descriptor {}).toOption.bind List.getLast?).map
        (fun set => (set.collection, (set.evaluated .create).any Expr.hasLookup)) =
          some (some "books", true) := by decide +kernel
  cases hanalysis : analyze libraryModel "lib.Shelves" {} with
  | error fault =>
      rw [hanalysis] at hlast
      cases hlast
  | ok analysis =>
      rw [hanalysis] at hlast
      cases hplan : planAll libraryModel analysis.descriptor {} with
      | error fault =>
          simp only [Except.toOption, Option.bind_some, hplan] at hlast
          cases hlast
      | ok sets =>
          simp only [Except.toOption, Option.bind_some, hplan] at hlast
          obtain ⟨set, hset, hfacts⟩ := Option.map_eq_some_iff.mp hlast
          obtain ⟨hcollection, hlookup⟩ := Prod.mk.inj hfacts
          have hmem : set ∈ sets := List.mem_of_getLast? hset
          exact ⟨analysis, sets, set, rfl, hplan, hmem, hcollection, hlookup,
            planned_set_reads_rows_of_operation hplan hmem⟩

end ChangeTracking.Plan
