import ChangeTracking.Proofs.Plan.PlannedSets
import ChangeTracking.Proofs.Plan.Subterms

/-!
# Rows that planned expressions read

Planning builds every expression from an origin.  What is built from an origin reads the
rows that the origin reads, however many hops, read-backs and translations lie between;
so what the columns of a planned set hold and how they are labelled depends on the row to
be bound alone.
-/

namespace ChangeTracking.Plan

open Schema (ColumnPair Entity Hop Model Route)
open Tracking (Attribute Collection Descriptor IdentityField)

/-- The expression itself reads no other row than the given one, and no local. -/
def ReadsOnly (row : RowRole) : Expr → Prop
  | .column role _ => role = row
  | .variable _ => False
  | _ => True

instance (row : RowRole) : DecidablePred (ReadsOnly row) := fun e => by
  cases e <;> unfold ReadsOnly <;> infer_instance

/-- At every depth the expression reads no other row than the given one, and no local. -/
def Expr.OnRow (row : RowRole) (e : Expr) : Prop := e.Everywhere (ReadsOnly row)

instance (row : RowRole) : DecidablePred (Expr.OnRow row) :=
  fun e => inferInstanceAs (Decidable (e.Everywhere (ReadsOnly row)))

variable {row : RowRole}

namespace Expr

@[simp] theorem onRow_column {role : RowRole} {name : String} :
    OnRow row (.column role name) ↔ role = row := by
  simp [OnRow, ReadsOnly]

@[simp] theorem onRow_locale : OnRow row .locale := by
  simp [OnRow, ReadsOnly]

@[simp] theorem onRow_lookup {entity name : String} {filters : List (String × Expr)} :
    OnRow row (.lookup entity name filters) ↔ ∀ f ∈ filters, f.2.OnRow row := by
  simp [OnRow, ReadsOnly]

@[simp] theorem onRow_keyJoin {parts : List Expr} :
    OnRow row (.keyJoin parts) ↔ ∀ e ∈ parts, e.OnRow row := by
  simp [OnRow, ReadsOnly]

@[simp] theorem onRow_listJoin {parts : List Expr} :
    OnRow row (.listJoin parts) ↔ ∀ e ∈ parts, e.OnRow row := by
  simp [OnRow, ReadsOnly]

@[simp] theorem onRow_firstOf {parts : List Expr} :
    OnRow row (.firstOf parts) ↔ ∀ e ∈ parts, e.OnRow row := by
  simp [OnRow, ReadsOnly]

@[simp] theorem onRow_encoded {rule : TextRule} {inner : Expr} :
    OnRow row (.encoded rule inner) ↔ inner.OnRow row := by
  simp [OnRow, ReadsOnly]

end Expr

/-! ## Origins -/

/-- What is read from the origin reads no other row than the given one. -/
def Origin.OnRow (row : RowRole) : Origin → Prop
  | .row role => role = row
  | .keyed _ filters => ∀ f ∈ filters, f.2.OnRow row

namespace Origin

variable {origin : Origin}

theorem OnRow.read (h : origin.OnRow row) (column : String) : (origin.read column).OnRow row := by
  cases origin with
  | row role => exact Expr.onRow_column.mpr h
  | keyed entity filters => exact Expr.onRow_lookup.mpr h

theorem OnRow.readBack (h : origin.OnRow row) (entity : String) (key : List String) :
    (origin.readBack entity key).OnRow row := by
  cases origin with
  | row role =>
      intro f hf
      obtain ⟨column, -, rfl⟩ := List.mem_map.mp hf
      exact Expr.onRow_column.mpr h
  | keyed entity filters => exact h

theorem OnRow.hop (h : origin.OnRow row) (next : Hop) : (origin.hop next).OnRow row := by
  intro f hf
  obtain ⟨join, -, rfl⟩ := List.mem_map.mp hf
  exact h.read join.source

theorem OnRow.along (h : origin.OnRow row) (hops : List Hop) :
    (origin.along hops).OnRow row := by
  induction hops generalizing origin with
  | nil => exact h
  | cons next hops ih => exact ih (h.hop next)

end Origin

/-! ## Paths, identifiers and labels -/

variable {origin : Origin}

theorem onRow_translation (h : origin.OnRow row) (m : Model) (entity texts column : String) :
    (translation m entity texts column origin).OnRow row := by
  unfold translation
  rw [Expr.onRow_lookup]
  intro f hf
  rcases List.mem_append.mp hf with hf | hf
  -- A record that was looked up is translated by its filters, a row by its key.
  · cases origin with
    | keyed entity filters => exact h f hf
    | row role =>
        cases hentity : m.get? entity with
        | none =>
            simp only [hentity] at hf
            cases hf
        | some e =>
            simp only [hentity] at hf
            obtain ⟨k, -, rfl⟩ := List.mem_map.mp hf
            exact Expr.onRow_column.mpr h
  · rw [List.mem_singleton.mp hf]
    exact Expr.onRow_locale

theorem onRow_terminal (h : origin.OnRow row) (m : Model) (route : Route) (column : String) :
    (terminal m route origin column).OnRow row := by
  unfold terminal
  split
  · rw [Expr.onRow_firstOf]
    intro e he
    rcases List.mem_cons.mp he with rfl | he
    · exact onRow_translation h m _ _ column
    · rw [List.mem_singleton.mp he]
      exact h.read column
  · exact h.read column

theorem onRow_routeValue (h : origin.OnRow row) (m : Model) (route : Route) :
    (routeValue m route origin).OnRow row := by
  have hlast := h.along route.hops
  unfold routeValue
  split
  · exact Expr.onRow_encoded.mpr (onRow_terminal hlast m route _)
  · rw [Expr.onRow_keyJoin]
    intro e he
    obtain ⟨column, -, rfl⟩ := List.mem_map.mp he
    exact Expr.onRow_encoded.mpr (hlast.read column)

theorem onRow_phrase (m : Model) (entity : Entity) (paths : List (String × Origin))
    (h : ∀ p ∈ paths, p.2.OnRow row) (e : Expr) (he : phrase m entity paths = some e) :
    e.OnRow row := by
  obtain ⟨values, -, rfl, hvalues⟩ := parts_of_phrase he
  refine Expr.onRow_encoded.mpr (Expr.onRow_listJoin.mpr fun value hvalue => ?_)
  obtain ⟨p, hp, route, -, rfl⟩ := hvalues value hvalue
  exact onRow_routeValue (h p hp) m route

theorem onRow_fieldOrigin (h : origin.OnRow row) (m : Model) (entity : Entity)
    (key : List String) (field : IdentityField) :
    (fieldOrigin m entity key origin field).OnRow row := by
  unfold fieldOrigin
  split
  · split
    · exact h.readBack entity.name key
    · exact h
  · exact h

theorem onRow_identifier (h : origin.OnRow row) (m : Model) (entity : Entity)
    (fields : List IdentityField) (key : List String) (e : Expr)
    (he : identifier m entity fields key origin = some e) : e.OnRow row := by
  refine onRow_phrase m entity _ ?_ e he
  intro p hp
  obtain ⟨field, -, rfl⟩ := List.mem_map.mp hp
  exact onRow_fieldOrigin h m entity key field

theorem onRow_label (h : origin.OnRow row) (m : Model) (entity : Entity)
    (paths : List String) (e : Expr) (he : label m entity paths origin = some e) :
    e.OnRow row := by
  refine onRow_phrase m entity _ ?_ e he
  intro p hp
  obtain ⟨path, -, rfl⟩ := List.mem_map.mp hp
  exact h

theorem onRow_encodeKey (columns : List String) (row : RowRole) :
    (encodeKey columns row).OnRow row := by
  have hparts : ∀ e ∈ columns.map (fun column => rawText (.column row column)),
      e.OnRow row := by
    intro e he
    obtain ⟨column, -, rfl⟩ := List.mem_map.mp he
    exact Expr.onRow_encoded.mpr (Expr.onRow_column.mpr rfl)
  unfold encodeKey joinedKey
  split
  · rename_i part hpart
    exact hparts part (hpart ▸ List.mem_singleton_self part)
  · exact Expr.onRow_keyJoin.mpr hparts

/-! ## Planned columns -/

/-- What the column holds and how it is labelled depends on the row to be bound alone. -/
structure TrackedColumn.OnSubject (c : TrackedColumn) : Prop where
  value : c.value.OnRow .subject
  label : ∀ e, c.label = some e → e.OnRow .subject

theorem onSubject_attributeColumn (m : Model) (entity : Entity) (a : Attribute) :
    (attributeColumn m entity a).OnSubject where
  value := by
    show (attributeValue a).OnRow .subject
    unfold attributeValue
    split
    · exact onRow_encodeKey a.watched .subject
    · exact Expr.onRow_encoded.mpr (Expr.onRow_column.mpr rfl)
  label := fun e he => @onRow_label .subject (.row .subject) rfl m entity a.labelPaths e he

theorem onSubject_of_planCollection {m : Model} {d : Descriptor} {settings : Settings}
    {collection : Collection} {set : TriggerSet}
    (h : planCollection m d settings collection = .ok set) {c : TrackedColumn}
    (hc : c ∈ set.columns) : c.OnSubject := by
  obtain ⟨target, column, -, hcolumns, -, hlabel, hvalue⟩ := columns_of_planCollection h
  rw [hcolumns, List.mem_singleton] at hc
  subst hc
  refine ⟨?_, fun e he => ?_⟩
  · rw [hvalue]
    cases hid : identifier m target collection.identity collection.targetKeys
        (.row .subject) with
    | none => exact onRow_encodeKey collection.targetKeys .subject
    | some e =>
        exact @onRow_identifier .subject (.row .subject) rfl m target collection.identity
          collection.targetKeys e hid
  · rw [hlabel] at he
    cases he

/-- Every column of a planned set depends on the row to be bound alone. -/
theorem onSubject_of_mem_planAll {m : Model} {d : Descriptor} {settings : Settings}
    {sets : List TriggerSet} (h : planAll m d settings = .ok sets) {set : TriggerSet}
    (hset : set ∈ sets) {c : TrackedColumn} (hc : c ∈ set.columns) : c.OnSubject := by
  rcases mem_planAll h hset with hown | ⟨collection, -, hcollection⟩
  · obtain ⟨entity, -, hcolumns⟩ := columns_of_planEntity hown
    rw [hcolumns] at hc
    obtain ⟨a, -, rfl⟩ := List.mem_map.mp hc
    exact onSubject_attributeColumn m entity a
  · exact onSubject_of_planCollection hcollection hc

end ChangeTracking.Plan
