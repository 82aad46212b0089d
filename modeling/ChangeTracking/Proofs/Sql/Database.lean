import ChangeTracking.Firing.Evaluation
import ChangeTracking.Proofs.Sql.Meaning
import ChangeTracking.Sql.Dialect

/-!
# The database of a trigger

What a trigger evaluates as a scene, seen as a database: the stored rows under the names
that the catalog has for their entities, and the two rows of the trigger.  The two agree
where no name can be mistaken for another one that differs in letter case only.
-/

namespace ChangeTracking.Sql.Engine

open Firing (Row Store Scene)

/-! ## Names -/

theorem sameName_self (name : String) : sameName name name = true := by
  simp [sameName]

/-! ## Rows -/

def cellsOf (row : Row) : Cells := row.cells.map fun cell => (cell.1, some (.text cell.2))

/-- No other column of the row has a name that matches. -/
def TellsColumn (row : Row) (column : String) : Prop :=
  ∀ cell ∈ row.cells, sameName cell.1 column = true → cell.1 = column

instance (row : Row) (column : String) : Decidable (TellsColumn row column) :=
  inferInstanceAs (Decidable (∀ cell ∈ row.cells, sameName cell.1 column = true → cell.1 = column))

theorem get_cellsOf {row : Row} {column : String} (h : TellsColumn row column) :
    (cellsOf row).get column = (row.get? column).map .text := by
  obtain ⟨cells⟩ := row
  rw [cellsOf, Row.get?, Cells.get]
  -- The first cell of a matching name is the first cell of that very name.
  induction cells with
  | nil => rfl
  | cons cell cells ih =>
      have htail := ih fun other hother => h other (List.mem_cons_of_mem _ hother)
      rw [List.map_cons, List.find?_cons, List.lookup_cons]
      by_cases hcell : cell.1 = column
      · simp [hcell, sameName_self]
      · have hdiffers : sameName cell.1 column = false := by
          rw [Bool.eq_false_iff]
          exact fun hsame => hcell (h cell List.mem_cons_self hsame)
        rw [hdiffers, beq_eq_false_iff_ne.mpr (Ne.symm hcell)]
        exact htail

/-! ## Tables -/

/-- The rows of the tables of a store, by the names that the catalog has for them. -/
def tablesOf (d : Dialect) (store : Store) (table : String) : List Cells :=
  (store.rows.filter fun row => sameName (d.catalogTable row.1) table).map fun row => cellsOf row.2

/-- No other table of the store has a name that matches, and neither has a row of the
trigger. -/
structure TellsTable (d : Dialect) (store : Store) (entity : String) : Prop where
  stored : ∀ row ∈ store.rows,
    sameName (d.catalogTable row.1) (d.catalogTable entity) = true → row.1 = entity
  old : sameName "OLD" (d.catalogTable entity) = false
  new : sameName "NEW" (d.catalogTable entity) = false

instance (d : Dialect) (store : Store) (entity : String) : Decidable (TellsTable d store entity) :=
  decidable_of_iff ((∀ row ∈ store.rows,
      sameName (d.catalogTable row.1) (d.catalogTable entity) = true → row.1 = entity) ∧
      sameName "OLD" (d.catalogTable entity) = false ∧ sameName "NEW" (d.catalogTable entity) = false)
    ⟨fun h => ⟨h.1, h.2.1, h.2.2⟩, fun h => ⟨h.stored, h.old, h.new⟩⟩

theorem tablesOf_catalogTable {d : Dialect} {store : Store} {entity : String}
    (h : TellsTable d store entity) :
    tablesOf d store (d.catalogTable entity) = (store.rowsOf entity).map cellsOf := by
  have hrows : store.rows.filter (fun row => sameName (d.catalogTable row.1)
      (d.catalogTable entity)) = store.rows.filter (·.1 == entity) := by
    apply List.filter_congr
    intro row hrow
    by_cases hentity : row.1 = entity
    · simp [hentity, sameName_self]
    · have hdiffers : sameName (d.catalogTable row.1) (d.catalogTable entity) = false := by
        rw [Bool.eq_false_iff]
        exact fun hsame => hentity (h.stored row hrow hsame)
      rw [hdiffers, beq_eq_false_iff_ne.mpr hentity]
  rw [tablesOf, hrows, Store.rowsOf, List.map_map]
  rfl

/-! ## Environments -/

/-- The environment in which a trigger evaluates its values and conditions. -/
def environmentOf (d : Dialect) (s : Scene) (session : String → Option String) : Environment where
  database := ⟨tablesOf d s.store, session⟩
  old := s.old.map cellsOf
  new := s.new.map cellsOf

theorem Environment.row_eq {env : Environment} {name : String}
    (hname : ∀ row ∈ env.rows, ∀ other ∈ row.1, sameName name other = false) :
    env.row name = if sameName name "OLD" then env.old
      else if sameName name "NEW" then env.new else none := by
  have hnone : env.rows.find? (fun row => row.1.any (sameName name)) = none := by
    rw [List.find?_eq_none]
    intro row hrow
    cases hother : row.1 with
    | none => simp
    | some other => simp [hname row hrow other hother]
  rw [Environment.row, hnone]

/-- An environment inside queries of the trigger: no table is mistaken for a row of it. -/
structure Sees (d : Dialect) (s : Scene) (session : String → Option String) (env : Environment) :
    Prop where
  database : env.database = ⟨tablesOf d s.store, session⟩
  old : env.old = s.old.map cellsOf
  new : env.new = s.new.map cellsOf
  names : ∀ row ∈ env.rows, ∀ name ∈ row.1,
    sameName "OLD" name = false ∧ sameName "NEW" name = false

namespace Sees

variable {d : Dialect} {s : Scene} {session : String → Option String} {env : Environment}

theorem environmentOf (d : Dialect) (s : Scene) (session : String → Option String) :
    Sees d s session (environmentOf d s session) :=
  ⟨rfl, rfl, rfl, by simp [Engine.environmentOf]⟩

theorem enter_table (h : Sees d s session env) {entity : String}
    (hentity : TellsTable d s.store entity) (cells : Cells) :
    Sees d s session (env.enter (some (d.catalogTable entity)) cells) where
  database := h.database
  old := h.old
  new := h.new
  names := by
    intro row hrow name hname
    rcases List.mem_cons.mp hrow with rfl | hrow
    · cases hname
      exact ⟨hentity.old, hentity.new⟩
    · exact h.names row hrow name hname

theorem row_old (h : Sees d s session env) : env.row "OLD" = s.old.map cellsOf := by
  rw [Environment.row_eq fun row hrow name hname => (h.names row hrow name hname).1,
    if_pos (by decide), h.old]

theorem row_new (h : Sees d s session env) : env.row "NEW" = s.new.map cellsOf := by
  rw [Environment.row_eq fun row hrow name hname => (h.names row hrow name hname).2,
    if_neg (by decide), if_pos (by decide), h.new]

end Sees

end ChangeTracking.Sql.Engine
