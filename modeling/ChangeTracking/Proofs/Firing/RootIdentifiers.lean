import ChangeTracking.Proofs.Firing.Origins
import ChangeTracking.Proofs.Firing.RootKeys
import ChangeTracking.Proofs.Plan.Readings

/-!
# The identifier of the owner

A child identifies its owner by the owner's own paths, but reads them from the record that
its foreign keys select, where the owner reads them from the written row.  Both ways come
upon the same record and upon the same translations of it, because a translation is looked
for by the key columns of the record, in whatever order they are compared.
-/

namespace ChangeTracking.Firing

open Plan (Expr Origin PlansChildren RowRole TriggerSet fieldOrigin identifierFrom linkFilters
  ownIdentifier planEntity)
open Schema (ColumnPair Entity Model)
open Tracking (Analysis IdentityField analyze primaryKey)

/-! ## Look-ups by the same values -/

/-- The values of the given columns that the row has. -/
def Row.restrict (row : Row) (columns : List String) : List (String × String) :=
  columns.filterMap fun column => (row.get? column).map (column, ·)

namespace Row

variable {row : Row} {columns : List String} {v w : List (String × String)}

theorem mem_restrict {p : String × String} :
    p ∈ row.restrict columns ↔ p.1 ∈ columns ∧ row.get? p.1 = some p.2 := by
  obtain ⟨column, value⟩ := p
  simp only [restrict, List.mem_filterMap, Option.map_eq_some_iff, Prod.mk.injEq]
  constructor
  · rintro ⟨_, hcolumn, _, hvalue, rfl, rfl⟩
    exact ⟨hcolumn, hvalue⟩
  · rintro ⟨hcolumn, hvalue⟩
    exact ⟨column, hcolumn, value, hvalue, rfl, rfl⟩

theorem restrict_cons {column value : String} (h : row.get? column = some value) :
    row.restrict (column :: columns) = (column, value) :: row.restrict columns := by
  rw [restrict, List.filterMap_cons, h]
  rfl

theorem has_congr (row : Row) (h : ∀ p, p ∈ v ↔ p ∈ w) : row.has v = row.has w := by
  rw [Bool.eq_iff_iff, has, has, List.all_eq_true, List.all_eq_true]
  exact forall_congr' fun p => imp_congr_left (h p)

/-- A row has the values of another one where it agrees with it on the columns. -/
theorem has_restrict_iff {other : Row} (hpresent : ∀ column ∈ columns, (row.get? column).isSome) :
    other.has (row.restrict columns) = true ↔
      ∀ column ∈ columns, other.get? column = row.get? column := by
  rw [has, List.all_eq_true]
  constructor
  · intro h column hcolumn
    obtain ⟨value, hvalue⟩ := Option.isSome_iff_exists.mp (hpresent column hcolumn)
    have hother := h (column, value) (mem_restrict.mpr ⟨hcolumn, hvalue⟩)
    rw [hvalue]
    exact beq_iff_eq.mp hother
  · intro h p hp
    obtain ⟨hcolumn, hvalue⟩ := mem_restrict.mp hp
    rw [beq_iff_eq, h p.1 hcolumn, hvalue]

end Row

namespace Store

variable {store : Store} {v w : List (String × String)}

theorem find?_congr (store : Store) (entity : String) (h : ∀ p, p ∈ v ↔ p ∈ w) :
    store.find? entity v = store.find? entity w := by
  have hhas : (fun row : Row => row.has v) = fun row => row.has w :=
    funext fun row => row.has_congr h
  rw [find?, find?, hhas]

theorem translationOf_congr (store : Store) (texts column : String) (h : ∀ p, p ∈ v ↔ p ∈ w) :
    store.translationOf texts column v = store.translationOf texts column w := by
  have hfind : ∀ locale, store.find? texts (v ++ [("locale", locale)]) =
      store.find? texts (w ++ [("locale", locale)]) := fun locale =>
    store.find?_congr texts fun p => by rw [List.mem_append, List.mem_append, h]
  simp only [translationOf, hfind]

/-- The store holds the row as a record of the entity that its key columns single out. -/
structure SinglesOut (store : Store) (root : Entity) (row : Row) : Prop where
  stored : row ∈ store.rowsOf root.name
  present : ∀ column ∈ primaryKey root, (row.get? column).isSome
  unique : ∀ other ∈ store.rowsOf root.name,
    (∀ column ∈ primaryKey root, other.get? column = row.get? column) → other = row

theorem SinglesOut.find?_eq {root : Entity} {row : Row} (h : store.SinglesOut root row) :
    store.find? root.name (row.restrict (primaryKey root)) = some row := by
  unfold find?
  have hself : row.has (row.restrict (primaryKey root)) = true :=
    (Row.has_restrict_iff h.present).mpr fun _ _ => rfl
  cases hfound : (store.rowsOf root.name).find? (·.has (row.restrict (primaryKey root))) with
  | none => exact absurd hself (List.find?_eq_none.mp hfound row h.stored)
  | some other =>
      have hhas : other.has (row.restrict (primaryKey root)) = true := by
        simpa only using List.find?_some hfound
      have hagrees := (Row.has_restrict_iff h.present).mp hhas
      rw [h.unique other (List.mem_of_find?_eq_some hfound) hagrees]

end Store

/-! ## The row of the owner -/

/-- The origin leads to the row of an entity, and to its translations by the entity's key. -/
structure LeadsTo (m : Model) (s : Scene) (root : Entity) (row : Row) (o : Origin) : Prop where
  read (column : String) : s.value (o.read column) = row.get? column
  translation (texts column : String) :
    s.value (Plan.translation m root.name texts column o) =
      s.store.translationOf texts column (row.restrict (primaryKey root))

/-- Two origins that lead to one row are alike. -/
theorem LeadsTo.alike {m : Model} {s t : Scene} {root : Entity} {row : Row} {o o' : Origin}
    (hstore : s.store = t.store) (h : LeadsTo m s root row o) (h' : LeadsTo m t root row o') :
    Alike m s t root.name o o' := by
  refine ⟨fun column => ?_, fun texts column => ?_⟩
  · rw [h.read, h'.read]
  · rw [h.translation, h'.translation, hstore]

section Leading

variable {m : Model} {store : Store} {root : Entity} {child row : Row} {joins : List ColumnPair}

/-- Linked columns have the values of the columns that they stand for. -/
theorem filterValues_linkFilters (store : Store)
    (hheld : ∀ join ∈ joins, child.get? join.source = row.get? join.target)
    (hpresent : ∀ join ∈ joins, (row.get? join.target).isSome) :
    (store.sceneOf (some child)).filterValues (linkFilters joins) =
      some (row.restrict (joins.map (·.target))) := by
  induction joins with
  | nil => rfl
  | cons join joins ih =>
      obtain ⟨hhead, htail⟩ := List.forall_mem_cons.mp hheld
      obtain ⟨hsome, hsomes⟩ := List.forall_mem_cons.mp hpresent
      obtain ⟨value, hvalue⟩ := Option.isSome_iff_exists.mp hsome
      have hsource : (store.sceneOf (some child)).value (.column .subject join.source) =
          some value := by
        rw [← hvalue, ← hhead]
        rfl
      have hrest := ih htail hsomes
      rw [linkFilters] at hrest ⊢
      rw [List.map_cons, Scene.filterValues, hsource, hrest, List.map_cons,
        Row.restrict_cons hvalue]
      rfl

/-- Where the linked columns are the key, they lead to the row that the key singles out. -/
theorem leadsTo_keyed (m : Model)
    (hkeys : ∀ column, column ∈ joins.map (·.target) ↔ column ∈ primaryKey root)
    (hrow : store.SinglesOut root row)
    (hheld : ∀ join ∈ joins, child.get? join.source = row.get? join.target) :
    LeadsTo m (store.sceneOf (some child)) root row (.keyed root.name (linkFilters joins)) := by
  have hpresent : ∀ join ∈ joins, (row.get? join.target).isSome := fun join hjoin =>
    hrow.present _ ((hkeys _).mp (List.mem_map_of_mem hjoin))
  have hvalues := filterValues_linkFilters store hheld hpresent
  -- The order in which the key columns are compared does not matter.
  have hsame : ∀ p, p ∈ row.restrict (joins.map (·.target)) ↔ p ∈ row.restrict (primaryKey root) :=
    fun p => by rw [Row.mem_restrict, Row.mem_restrict, hkeys]
  refine ⟨fun column => ?_, fun texts column => ?_⟩
  · have hfind : store.find? root.name (row.restrict (joins.map (·.target))) = some row := by
      rw [store.find?_congr root.name hsame, hrow.find?_eq]
    rw [Origin.read, Scene.value, hvalues, Option.bind_some]
    show (store.find? _ _).bind _ = _
    rw [hfind, Option.bind_some]
  · show Scene.value _ (.lookup texts column (_ ++ [("locale", .locale)])) = _
    rw [Scene.value_translationLookup, hvalues, Option.bind_some]
    exact store.translationOf_congr texts column hsame

/-- Pairs by which key columns are compared with themselves. -/
def selfJoins (key : List String) : List ColumnPair := key.map fun column => ⟨column, column⟩

theorem linkFilters_selfJoins (key : List String) :
    linkFilters (selfJoins key) = key.map fun column => (column, .column .subject column) := by
  rw [linkFilters, selfJoins, List.map_map]
  rfl

theorem map_target_selfJoins (key : List String) : (selfJoins key).map (·.target) = key := by
  rw [selfJoins, List.map_map]
  exact List.map_id key

theorem held_selfJoins (key : List String) (row : Row) :
    ∀ join ∈ selfJoins key, row.get? join.source = row.get? join.target := by
  intro join hjoin
  obtain ⟨column, -, rfl⟩ := List.mem_map.mp hjoin
  rfl

/-- The row read back by its key is the row. -/
theorem leadsTo_readBack (hrow : store.SinglesOut root row) :
    LeadsTo m (store.sceneOf (some row)) root row
      ((Origin.row .subject).readBack root.name (primaryKey root)) := by
  have hkeys : ∀ column,
      column ∈ (selfJoins (primaryKey root)).map (·.target) ↔ column ∈ primaryKey root :=
    fun column => by rw [map_target_selfJoins]
  have hkeyed := leadsTo_keyed m hkeys hrow (held_selfJoins (primaryKey root) row)
  rw [linkFilters_selfJoins] at hkeyed
  exact hkeyed

/-- Key elements without associations are the columns of the primary key. -/
theorem keyNames_eq (hget : m.get? root.name = some root)
    (hplain : ∀ key ∈ root.keyElements, key.association = none) :
    Plan.keyNames m root.name = some (primaryKey root) := by
  have hcolumns : primaryKey root = root.keyElements.map (·.name) := by
    rw [primaryKey, List.map_eq_flatMap]
    refine List.flatMap_congr fun key hkey => ?_
    rw [Tracking.keyColumns, hplain key hkey]
    rfl
  rw [Plan.keyNames, hget, Option.map_some, hcolumns]

/-- The written row leads to itself, and to its translations by its key elements. -/
theorem leadsTo_row (hget : m.get? root.name = some root)
    (hplain : ∀ key ∈ root.keyElements, key.association = none)
    (hrow : store.SinglesOut root row) :
    LeadsTo m (store.sceneOf (some row)) root row (.row .subject) := by
  have hpresent : ∀ join ∈ selfJoins (primaryKey root), (row.get? join.target).isSome :=
    fun join hjoin => by
      obtain ⟨column, hcolumn, rfl⟩ := List.mem_map.mp hjoin
      exact hrow.present column hcolumn
  have hvalues := filterValues_linkFilters store
    (held_selfJoins (primaryKey root) row) hpresent
  refine ⟨fun column => rfl, fun texts column => ?_⟩
  rw [Plan.translation_row, keyNames_eq hget hplain, Option.getD_some, ← linkFilters_selfJoins,
    Scene.value_translationLookup, hvalues, map_target_selfJoins]
  rfl

/-- Wherever the owner reads a field, it comes upon its own row. -/
theorem leadsTo_fieldOrigin (hget : m.get? root.name = some root)
    (hplain : ∀ key ∈ root.keyElements, key.association = none)
    (hrow : store.SinglesOut root row) (field : IdentityField) :
    LeadsTo m (store.sceneOf (some row)) root row
      (fieldOrigin m root (primaryKey root) (.row .subject) field) := by
  unfold fieldOrigin
  split
  · split
    · exact leadsTo_readBack hrow
    · exact leadsTo_row hget hplain hrow
  · exact leadsTo_row hget hplain hrow

/-- Over the child the paths of the owner have the values that they have over its own row. -/
theorem valueOver_identifierFrom (hget : m.get? root.name = some root)
    (hplain : ∀ key ∈ root.keyElements, key.association = none)
    (hkeys : ∀ column, column ∈ joins.map (·.target) ↔ column ∈ primaryKey root)
    (hrow : store.SinglesOut root row)
    (hheld : ∀ join ∈ joins, child.get? join.source = row.get? join.target)
    (merged : Tracking.Merged) :
    (identifierFrom m root merged (joins.map (·.target))
        (.keyed root.name (linkFilters joins))).bind (store.valueOver (some child)) =
      (identifierFrom m root merged (primaryKey root) (.row .subject)).bind
        (store.valueOver (some row)) := by
  refine value_identifier_congr rfl fun field _ => ?_
  rw [fieldOrigin_keyed]
  exact (leadsTo_keyed m hkeys hrow hheld).alike rfl (leadsTo_fieldOrigin hget hplain hrow field)

end Leading

/-! ## The identifier of the owner -/

theorem Scene.value_identifierFrom (s : Scene) (role : RowRole) (m : Model) (e : Entity)
    (merged : Tracking.Merged) (key : List String) {origin : Origin}
    (horigin : origin.OnRow .subject) :
    s.value (TriggerSet.bound role (identifierFrom m e merged key origin)) =
      (identifierFrom m e merged key origin).bind (s.store.valueOver (s.row role)) :=
  s.value_bound role fun e' he' => Plan.onRow_identifier horigin m e _ key e' he'

/-- Where the foreign keys of a child are the key of its owner, and the store holds the one
record with this key, the child's records identify the owner as the owner's own records do. -/
theorem rootObjectId_agrees {m : Model} {settings : Settings} {name : String} {a : Analysis}
    (h : analyze m name settings = .ok a) {rootName : String} {joins : List ColumnPair}
    {set : TriggerSet}
    (hset : PlansChildren m settings a.descriptor rootName (.foreignKeys joins) set)
    {root : Entity} (hget : m.get? rootName = some root)
    (hkeys : ∀ column, column ∈ joins.map (·.target) ↔ column ∈ primaryKey root)
    (hplain : ∀ key ∈ root.keyElements, key.association = none)
    {s t : Scene} (hstore : s.store = t.store) {role role' : RowRole} {child row : Row}
    (hchild : s.row role = some child) (hrow : t.row role' = some row)
    (hsingle : s.store.SinglesOut root row)
    (hheld : ∀ join ∈ joins, child.get? join.source = row.get? join.target) :
    ∃ own, ownIdentifier m root = .ok own ∧
      (∀ rootAnalysis ownSet, analyze m rootName settings = .ok rootAnalysis →
        planEntity m rootAnalysis.descriptor settings = .ok (some ownSet) →
          ownSet.identifier = own) ∧
      s.value (set.identity role).rootObjectId = t.value (TriggerSet.bound role' own) := by
  obtain ⟨root', merged, o, hget', hprojection, hmerged, howner, -, hidentifier⟩ :=
    Plan.owner_of_foreignKeys h hset
  rw [hget] at hget'
  cases hget'
  have hname : m.get? root.name = some root := by
    rw [Model.name_of_get? hget]
    exact hget
  have hown : ownIdentifier m root =
      .ok (identifierFrom m root merged (primaryKey root) (.row .subject)) := by
    rw [ownIdentifier, hmerged]
    rfl
  refine ⟨_, hown, fun rootAnalysis ownSet hanalysis hplan => ?_, ?_⟩
  · have hsame := (Plan.identity_of_ownSet hget hprojection hanalysis hplan).2
    rw [hown] at hsame
    exact (Except.ok.inj hsame).symm
  · -- Both identifiers are planned alike, from origins that read one record of the owner.
    have hlinked : (Origin.keyed root.name (linkFilters joins)).OnRow .subject := fun f hf => by
      obtain ⟨join, -, rfl⟩ := List.mem_map.mp hf
      exact Expr.onRow_column.mpr rfl
    have hwritten : (Origin.row .subject).OnRow .subject := rfl
    show s.value (TriggerSet.bound role (set.owner.bind (·.identifier))) = _
    rw [howner, Option.bind_some, hidentifier, s.value_identifierFrom role m root merged _ hlinked,
      t.value_identifierFrom role' m root merged _ hwritten, hchild, hrow, ← hstore]
    exact valueOver_identifierFrom hname hplain hkeys hsingle hheld merged

/-- Concerts are known by a number and a hall; they have a translated title, a computed price
and an artist. -/
def concerts : Entity where
  name := "hall.Concerts"
  directive := some (.paths ["title", "price", "artist.name"])
  texts := some "hall.Concerts.texts"
  elements := [
    { name := "ID", isKey := true },
    { name := "hall", isKey := true },
    { name := "title", isLocalized := true },
    { name := "price", isComputed := true },
    { name := "artist", type := "cds.Association"
      association := some { kind := .reference, target := "hall.Artists", keys := ["ID"] } },
    { name := "tickets", type := "cds.Composition"
      association := some {
        kind := .composition, target := "hall.Tickets", many := true
        on := [⟨"concert_ID", "ID"⟩, ⟨"concert_hall", "hall"⟩] } }]

/-- Concerts with their tickets, which list the two key columns the other way round. -/
def concertModel : Model where
  entities := NameMap.ofList [
    ("hall.Concerts", concerts),
    ("hall.Artists", {
      name := "hall.Artists"
      elements := [{ name := "ID", isKey := true }, { name := "name" }] }),
    ("hall.Tickets", {
      name := "hall.Tickets"
      elements := [
        { name := "ID", isKey := true },
        { name := "concert", type := "cds.Association"
          association := some {
            kind := .reference, target := "hall.Concerts", keys := ["hall", "ID"] } },
        { name := "seat", directive := some (.marker true) }] })]
  checked := by decide

/-- The columns by which a ticket leads to its concert. -/
def ticketJoins : List ColumnPair := [⟨"hall", "concert_hall"⟩, ⟨"ID", "concert_ID"⟩]

/-- The descriptor of the tickets. -/
def tickets : Tracking.Descriptor where
  entity := "hall.Tickets"
  service := none
  primaryKey := ["ID"]
  attributes := [textAttribute "seat"]
  identity := []
  collections := []
  binding := some ⟨"hall.Concerts",
    .foreignKeys ticketJoins,
    [⟨"title", true⟩, ⟨"price", false⟩, ⟨"artist.name", false⟩]⟩

/-- A concert. -/
def concert : Row :=
  ⟨[("ID", "5"), ("hall", "north"), ("title", "Requiem"), ("price", "12"), ("artist_ID", "a")]⟩

/-- A ticket for it. -/
def ticket : Row :=
  ⟨[("ID", "1"), ("concert_ID", "5"), ("concert_hall", "north"), ("seat", "B7")]⟩

/-- Two concerts under one number, the translation of one of them, and an artist. -/
def concertStore : Store where
  rows := [
    ("hall.Concerts", ⟨[("ID", "5"), ("hall", "south"), ("title", "Opera")]⟩),
    ("hall.Concerts", concert),
    ("hall.Concerts.texts",
      ⟨[("locale", "de"), ("ID", "5"), ("hall", "north"), ("title", "Totenmesse")]⟩),
    ("hall.Artists", ⟨[("ID", "a"), ("name", "Mozart")]⟩)]
  locale := some "de"

theorem analyze_tickets : analyze concertModel "hall.Tickets" {} = .ok ⟨tickets, []⟩ := by
  decide +kernel

/-- A ticket identifies its concert as the concert does: by its translated title, its price
and its artist. -/
theorem rootObjectId_of_ticket :
    ∃ set own, planEntity concertModel tickets {} = .ok (some set) ∧
      (∀ column, column ∈ ticketJoins.map (·.target) ↔ column ∈ primaryKey concerts) ∧
      (∀ key ∈ concerts.keyElements, key.association = none) ∧
      concertStore.SinglesOut concerts concert ∧
      (∀ join ∈ ticketJoins, ticket.get? join.source = concert.get? join.target) ∧
      ownIdentifier concertModel concerts = .ok own ∧
      (concertStore.sceneOfNew ticket).value (set.identity .new).rootObjectId =
        (concertStore.sceneOfNew concert).value (TriggerSet.bound .new own) ∧
      (concertStore.sceneOfNew concert).value (TriggerSet.bound .new own) =
        some "Totenmesse, 12, Mozart" := by
  obtain ⟨set, hset⟩ := Plan.exists_ownSet analyze_tickets rfl
  have hchildren := PlansChildren.own rfl hset
  have hget : concertModel.get? "hall.Concerts" = some concerts := rfl
  have hkeys : ∀ column, column ∈ ticketJoins.map (·.target) ↔ column ∈ primaryKey concerts := by
    have htargets : ticketJoins.map (·.target) = ["hall", "ID"] := rfl
    have hprimary : primaryKey concerts = ["ID", "hall"] := rfl
    intro column
    rw [htargets, hprimary, List.mem_pair, List.mem_pair]
    exact or_comm
  have hplain : ∀ key ∈ concerts.keyElements, key.association = none := by decide +kernel
  have hsingle : concertStore.SinglesOut concerts concert :=
    ⟨by decide +kernel, by decide +kernel, by decide +kernel⟩
  have hheld : ∀ join ∈ ticketJoins, ticket.get? join.source = concert.get? join.target := by
    decide
  have hstore : (concertStore.sceneOfNew ticket).store =
      (concertStore.sceneOfNew concert).store := rfl
  have hticket : (concertStore.sceneOfNew ticket).row .new = some ticket := rfl
  have hconcert : (concertStore.sceneOfNew concert).row .new = some concert := rfl
  obtain ⟨own, hown, -, hagrees⟩ := rootObjectId_agrees analyze_tickets hchildren hget hkeys hplain
    hstore hticket hconcert hsingle hheld
  have hvalue : (ownIdentifier concertModel concerts).toOption.map (fun own =>
      (concertStore.sceneOfNew concert).value (TriggerSet.bound .new own)) =
        some (some "Totenmesse, 12, Mozart") := by
    decide +kernel
  rw [hown] at hvalue
  exact ⟨set, own, hset, hkeys, hplain, hsingle, hheld, hown, hagrees, Option.some.inj hvalue⟩

end ChangeTracking.Firing
