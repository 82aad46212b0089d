import ChangeTracking.Proofs.Script.Creations
import ChangeTracking.Proofs.Script.DollarQuotes
import ChangeTracking.Proofs.Script.Registries

/-!
# The tables of the history

Accepted settings name two tables, and they are compared as they are written.  A database that
folds names may know both under one name: generated statements then write change records and
headers to one table, and purge it twice.  Unless names are kept as they are, the tables are two
just if their names still differ once dots and letter case are gone.
-/

namespace ChangeTracking

open Text (charsAfter? charsAfter?_append)

/-! ## Names of the tables -/

namespace Settings

/-- The names of the two tables differ in whatever way a generator spells them. -/
def TablesApart (s : Settings) : Prop :=
  s.quotedIdentifiers = true ∨
    (Text.replaceChar '.' "_" s.changesTable).toLower ≠
      (Text.replaceChar '.' "_" s.headerTable).toLower

theorem ne_of_check {s : Settings} (h : s.check = .ok ()) : s.changesTable ≠ s.headerTable := by
  obtain ⟨_, -, h⟩ := bind_eq_ok.mp h
  obtain ⟨_, -, h⟩ := bind_eq_ok.mp h
  intro heq
  rw [if_pos heq] at h
  cases h

end Settings

namespace Sql.Dialect

theorem tableName_inj (d : Dialect) {entity entity' : String} :
    d.tableName entity = d.tableName entity' ↔ d.catalogTable entity = d.catalogTable entity' := by
  refine ⟨fun h => ?_, congrArg Text.sqlIdentifier⟩
  have hread (entity : String) :
      readName (d.tableName entity).toList = some (d.catalogTable entity, []) := readName_alone _
  have heq := hread entity
  rw [h, hread] at heq
  exact (Prod.mk.inj (Option.some.inj heq)).1.symm

theorem catalogTable_of (backend : Backend) (quoted : Bool) (entity : String) :
    (Dialect.of backend quoted).catalogTable entity =
      if quoted then entity else (Dialect.of backend quoted).tableStem entity := by
  cases backend <;> rfl

/-- The tables of accepted settings have different names, unless folding makes them one. -/
theorem catalogTable_ne_iff {s : Settings} (h : s.check = .ok ()) (backend : Backend) :
    (Dialect.of backend s.quotedIdentifiers).catalogTable s.changesTable ≠
        (Dialect.of backend s.quotedIdentifiers).catalogTable s.headerTable ↔
      s.TablesApart := by
  obtain ⟨hchanges, hheader⟩ := Script.isName_of_check h
  have hflat {name : String} (hname : Naming.IsName name) :
      Text.IsAscii (Text.replaceChar '.' "_" name) :=
    (Text.isAscii_of_isName hname).replaceChar '.' (by decide)
  rw [catalogTable_of, catalogTable_of, Settings.TablesApart]
  cases s.quotedIdentifiers with
  | true => simp [Settings.ne_of_check h]
  | false =>
      simp only [Bool.false_eq_true, if_false, false_or]
      exact (fold_eq_iff backend false (hflat hchanges) (hflat hheader)).not

end Sql.Dialect

namespace Script

open Plan (Expr Identity Operation TrackedColumn TriggerSet planAll)
open Sql (Dialect Fragment readName)
open Tracking (Descriptor analyze)

/-! ## Statements on the tables -/

/-- The table that rows are inserted into or deleted from. -/
def writtenTable? (statement : Fragment) : Option String := do
  let cs := statement.sent.toList
  let rest ← (charsAfter? "INSERT INTO ".toList cs).or (charsAfter? "DELETE FROM ".toList cs)
  let (table, _) ← readName rest
  return table

variable {d : Dialect} {set : TriggerSet}

theorem writtenTable?_insertRow (table : String) (columns : List String) (values : List Fragment) :
    writtenTable? (insertRow d table columns values) = some (d.catalogTable table) := by
  simp only [writtenTable?, insertRow, Fragment.sent_append, Fragment.sent_ofText,
    String.toList_append, List.append_assoc, charsAfter?_append, Option.some_or,
    Option.bind_eq_bind, Option.bind_some, Dialect.tableName]
  rw [Sql.readName_quoted _ (by simp)]
  rfl

theorem writtenTable?_purgeStatements (key : Expr) :
    (purgeStatements d set key).map writtenTable? =
      [some (d.catalogTable set.changesTable), some (d.catalogTable set.headerTable)] := by
  have hdelete (rest : List Char) :
      charsAfter? "INSERT INTO ".toList ("DELETE FROM ".toList ++ rest) = none := rfl
  have hpurge (table : String) : writtenTable? (.ofText ("DELETE FROM " ++ d.tableName table ++
      " WHERE ") ++ whereClause d (historyFilters set key)) = some (d.catalogTable table) := by
    simp only [writtenTable?, Fragment.sent_append, Fragment.sent_ofText, String.toList_append,
      List.append_assoc, hdelete, charsAfter?_append, Option.none_or, Option.bind_eq_bind,
      Option.bind_some, Dialect.tableName]
    rw [Sql.readName_quoted _ (by simp)]
    rfl
  rw [purgeStatements, List.map_map, List.map_cons, List.map_singleton]
  exact congrArg₂ (fun a b => [a, b]) (hpurge _) (hpurge _)

/-- All statements that a set writes the history with are on one table of change records and
one of headers. -/
structure WritesTo (d : Dialect) (set : TriggerSet) (changes headers : String) : Prop where
  insertChange : ∀ column op identity header,
    writtenTable? (insertChange d set column op identity header) = some changes
  insertHeader : ∀ id key, writtenTable? (insertHeader d set id key) = some headers
  purge : ∀ key, (purgeStatements d set key).map writtenTable? = [some changes, some headers]

theorem writesTo (d : Dialect) (set : TriggerSet) :
    WritesTo d set (d.catalogTable set.changesTable) (d.catalogTable set.headerTable) where
  insertChange _ _ _ _ := writtenTable?_insertRow _ _ _
  insertHeader _ _ := writtenTable?_insertRow _ _ _
  purge := writtenTable?_purgeStatements

/-- For accepted settings, each generator of the registry knows the tables of change records and
of headers under different names, and each planned set writes to different tables, just if names
are kept as they are or differ in more than dots and letter case. -/
theorem historyTables_apart_iff {settings : Settings} (hcheck : settings.check = .ok ())
    {name : String} {g : Generator} (hg : (Registry.builtin settings).get? name = some g) :
    (g.dialect.tableName settings.changesTable ≠ g.dialect.tableName settings.headerTable ↔
        settings.TablesApart) ∧
      ∀ (m : Schema.Model) (descriptor : Descriptor) (sets : List TriggerSet),
        planAll m descriptor settings = .ok sets → ∀ set ∈ sets, ∃ changes headers,
          WritesTo g.dialect set changes headers ∧ (changes ≠ headers ↔ settings.TablesApart) := by
  rw [Registry.get?_builtin, Option.map_eq_some_iff] at hg
  obtain ⟨backend, -, rfl⟩ := hg
  have hapart := Dialect.catalogTable_ne_iff hcheck backend
  refine ⟨(Dialect.tableName_inj _).not.trans hapart, ?_⟩
  intro m descriptor sets hplan set hset
  obtain ⟨-, hchanges, hheader, -⟩ := Plan.history_of_planAll hplan hset
  have hwrites := writesTo (Dialect.of backend settings.quotedIdentifiers) set
  rw [hchanges, hheader] at hwrites
  exact ⟨_, _, hwrites, hapart⟩

/-- The triggers on orders write to two tables if nothing else is set. -/
theorem historyTables_of_orders : ∃ a sets, analyze ordersModel "shop.Orders" {} = .ok a ∧
    planAll ordersModel a.descriptor {} = .ok sets ∧ sets.map (·.entity) = ["shop.Orders"] ∧
    (Registry.builtin {}).get? "PG" = some ⟨.postgres, false⟩ ∧
    ∀ set ∈ sets, ∃ changes headers,
      WritesTo (Dialect.postgres false) set changes headers ∧ changes ≠ headers := by
  obtain ⟨a, sets, ha, hplan, hentities⟩ := exists_planned_orders
  have hg : (Registry.builtin {}).get? "PG" = some ⟨.postgres, false⟩ := by
    have hpg : "PG".toLower = "pg" := Text.toLower_eq (by decide)
    rw [Registry.get?_builtin, Backend.ofName?, hpg]
    rfl
  have hcheck : Settings.check {} = .ok () := by decide +kernel
  have hapart : Settings.TablesApart {} := by
    refine .inr fun heq => ?_
    have hchars := congrArg String.toList heq
    rw [Text.toList_toLower, Text.toList_toLower] at hchars
    exact absurd hchars (by decide +kernel)
  have htables := (historyTables_apart_iff hcheck hg).2 ordersModel a.descriptor sets hplan
  refine ⟨a, sets, ha, hplan, hentities, hg, fun set hset => ?_⟩
  obtain ⟨changes, headers, hwrites, hne⟩ := htables set hset
  exact ⟨changes, headers, hwrites, hne.mpr hapart⟩

/-- Settings whose tables differ in a dot and in the letter case of a word. -/
def auditSettings : Settings where
  changesTable := "audit.Log"
  headerTable := "audit_log"

/-- These settings are accepted, but to each database both tables are one. -/
theorem historyTables_of_auditSettings : auditSettings.check = .ok () ∧
    ∀ backend : Backend, ∃ g, (Registry.builtin auditSettings).get? backend.name = some g ∧
      g.backend = backend ∧
      g.dialect.tableName auditSettings.changesTable =
        g.dialect.tableName auditSettings.headerTable := by
  refine ⟨by decide +kernel, fun backend => ?_⟩
  have hg : (Registry.builtin auditSettings).get? backend.name = some ⟨backend, false⟩ := by
    rw [Registry.get?_builtin, Backend.ofName?_name]
    rfl
  refine ⟨_, hg, rfl, ?_⟩
  cases backend <;> decide +kernel

end Script

end ChangeTracking
