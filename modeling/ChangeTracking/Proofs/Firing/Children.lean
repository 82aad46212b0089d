import ChangeTracking.Proofs.Firing.Transitions
import ChangeTracking.Proofs.Plan.Phrases

/-!
# Records of new children

The set of a composition of many has a single column.  Its value is the identifier of the child,
or the key of the child where no path of an identifier was kept.  Planning chooses between the two,
so that nothing takes the place of an identifier that has no text for some child.  The main
statement tells for which children a record is emitted: for those, and only for those, that have a
name in this sense.
-/

namespace ChangeTracking.Plan

theorem phraseParts_eq_nil_iff {parts : List (Option String)} :
    phraseParts parts = [] ↔ ∀ value, some value ∈ parts → value = "" := by
  rw [phraseParts, List.filterMap_eq_nil_iff]
  refine ⟨fun h value hmem => ?_, fun h part hmem => ?_⟩
  · simpa using h (some value) hmem
  · cases part with
    | none => rfl
    | some value => simp [h value hmem]

/-- A phrase is missing exactly if all of its parts are missing or empty. -/
theorem joinNonEmpty_eq_none_iff {parts : List (Option String)} :
    joinNonEmpty parts = none ↔ ∀ value, some value ∈ parts → value = "" := by
  rw [← phraseParts_eq_nil_iff, joinNonEmpty]
  cases phraseParts parts with
  | nil => simp
  | cons first rest => simp

end ChangeTracking.Plan

namespace ChangeTracking.Firing

open Plan (Expr Operation TrackedColumn TriggerSet encodeKey fieldOrigin identifier pathValue
  phraseOf planAll planCollection)
open Schema (Entity Model)
open Tracking (Analysis Collection Descriptor analyze)

/-! ## Names of children -/

/-- The name under which a new child is recorded: its identifier, which joins the fragments, or its
key where there are no fragments. -/
def childName (store : Store) (row : Row) (keys : List String) (fragments : List Expr) :
    Option String :=
  store.valueOver (some row) ((phraseOf fragments).getD (encodeKey keys .subject))

/-- The child is to be known by an identifier, and all fragments of it are missing or empty. -/
def Nameless (store : Store) (row : Row) (fragments : List Expr) : Prop :=
  fragments ≠ [] ∧ ∀ fragment ∈ fragments, ∀ text,
    store.valueOver (some row) fragment = some text → text = ""

variable {store : Store} {row : Row} {keys : List String} {fragments : List Expr}

theorem childName_of_key (store : Store) (row : Row) (keys : List String) :
    childName store row keys [] = Plan.joinKey (keys.map row.get?) :=
  store.valueOver_encodeKey row keys

theorem childName_of_fragments (h : fragments ≠ []) :
    childName store row keys fragments =
      (Plan.joinNonEmpty (fragments.map (store.valueOver (some row)))).map Plan.truncate := by
  cases fragments with
  | nil => exact absurd rfl h
  | cons first rest =>
      show (store.sceneOf (some row)).value (.encoded .truncated (.listJoin (first :: rest))) = _
      rw [Scene.value, Scene.value, Scene.values_eq_map]
      rfl

/-- A child whose key is there has a name, unless it is to be known by fragments that say
nothing. -/
theorem childName_eq_none_iff (hkeys : ¬ row.Lacks keys) :
    childName store row keys fragments = none ↔ Nameless store row fragments := by
  by_cases hfragments : fragments = []
  -- The key alone is the name, and it is missing only with one of its columns.
  · subst hfragments
    rw [childName_of_key, joinKey_eq_none_iff]
    exact ⟨fun hlacks => absurd hlacks hkeys, fun hnameless => absurd rfl hnameless.1⟩
  · rw [childName_of_fragments hfragments, Option.map_eq_none_iff, Plan.joinNonEmpty_eq_none_iff]
    refine ⟨fun h => ⟨hfragments, fun fragment hmem text htext => ?_⟩, fun h text hmem => ?_⟩
    · exact h text (List.mem_map.mpr ⟨fragment, hmem, htext⟩)
    · obtain ⟨fragment, hfragment, htext⟩ := List.mem_map.mp hmem
      exact h.2 fragment hfragment text htext

/-! ## Sets of a single column -/

/-- No flag is set that the set looks at, be it for the whole set or for one of its columns. -/
def Unskipped (set : TriggerSet) (skips : Skip.Session) : Prop :=
  ∀ flag ∈ set.skipFlags ++ set.columns.map (·.skipFlag), skips.isFlagSet flag = false

instance (set : TriggerSet) (skips : Skip.Session) : Decidable (Unskipped set skips) :=
  inferInstanceAs (Decidable
    (∀ flag ∈ set.skipFlags ++ set.columns.map (·.skipFlag), skips.isFlagSet flag = false))

variable {m : Model} {d : Descriptor} {c : Collection} {settings : Settings} {set : TriggerSet}

/-- With a single column, a create records the value of the new row, if it has one. -/
theorem records_create_of_column {column : TrackedColumn} (hcolumns : set.columns = [column])
    (hvalue : column.value.OnRow .subject) (henabled : set.isEnabled .create = true)
    {skips : Skip.Session} (hskips : Unskipped set skips) (old : Option Row) (row : Row)
    (store : Store) :
    (fire set .create old (some row) store skips).records =
      if (store.valueOver (some row) column.value).isSome then
        [(Scene.of .create old (some row) store skips).record set .create column]
      else [] := by
  obtain ⟨hset, hflag⟩ := List.forall_mem_append.mp hskips
  rw [hcolumns, List.map_singleton, List.forall_mem_singleton] at hflag
  rw [fire_eq_records set .create old (some row) store skips henabled
    ((isSuppressed_eq_false_iff set skips).mpr hset) rfl,
    recordedColumns_eq_presentColumns set .create _ (by decide), presentColumns, hcolumns,
    List.filter_singleton, Scene.value_bind_of_onRow _ _ hvalue]
  -- What is left of the guard is the value, read from the given row, and the flag of the column.
  show List.map _ (bif (store.valueOver (some row) column.value).isSome &&
    !skips.isFlagSet column.skipFlag then [column] else []) = _
  rw [hflag]
  cases (store.valueOver (some row) column.value).isSome <;> rfl

/-! ## Sets of collections -/

/-- The fragments make up the identifier of the children, one for each of its paths. -/
def Identifies (m : Model) (c : Collection) (target : Entity) (fragments : List Expr) : Prop :=
  List.Forall₂
    (fun field fragment =>
      pathValue m target field.path (fieldOrigin m target c.targetKeys (.row .subject) field) =
        .ok fragment)
    c.identity fragments

/-- The identifier of the children joins a fragment for each of its paths. -/
theorem exists_identifies {target : Entity}
    (h : ∀ path ∈ c.identity.map (·.path), Tracking.resolves m target path = true) :
    ∃ fragments, Identifies m c target fragments ∧
      identifier m target c.identity c.targetKeys (.row .subject) = phraseOf fragments := by
  refine ⟨_, Plan.forall₂_fragments fun field hfield =>
    h field.path (List.mem_map_of_mem hfield), ?_⟩
  rw [identifier, Plan.phrase_eq_phraseOf]

/-- The set is on the table of the children, and its only column holds their names. -/
structure NamesChildren (c : Collection) (target : Entity) (fragments : List Expr)
    (column : TrackedColumn) (set : TriggerSet) : Prop where
  collection_eq : set.collection = some c.element
  entity_eq : set.entity = target.name
  key_eq : set.key = encodeKey c.targetKeys .subject
  columns_eq : set.columns = [column]
  name_eq : column.name = c.element
  type_eq : column.type = "cds.Composition"
  value_eq : column.value = (phraseOf fragments).getD (encodeKey c.targetKeys .subject)

theorem exists_namesChildren (h : planCollection m d settings c = .ok set) {target : Entity}
    (htarget : m.get? c.target = some target) {fragments : List Expr}
    (hphrase : identifier m target c.identity c.targetKeys (.row .subject) = phraseOf fragments) :
    ∃ column, NamesChildren c target fragments column set := by
  obtain ⟨target', owner, htarget', -, rfl⟩ := Plan.eq_of_planCollection h
  cases htarget.symm.trans (Schema.Model.entity_eq_ok_iff.mp htarget')
  exact ⟨_, rfl, rfl, rfl, rfl, rfl, rfl, by rw [hphrase]⟩

/-- The record of a new child tells its key, and its name as a value that appeared. -/
structure TellsChild (c : Collection) (target : Entity) (row : Row) (name : Option String)
    (r : ChangeRecord) : Prop where
  attributeName : r.attributeName = c.element
  type : r.type = "cds.Composition"
  modification : r.modification = Operation.create.modification
  entity : r.entity = target.name
  entityKey : r.entityKey = Plan.joinKey (c.targetKeys.map row.get?)
  before : r.before = none
  after : r.after = name
  after_isSome : r.after.isSome = true

/-- A new child that has its key is recorded once, with its name, unless it is nameless; then
nothing is recorded of it. -/
def RecordsNamed (c : Collection) (target : Entity) (fragments : List Expr) (set : TriggerSet) :
    Prop :=
  ∀ old row store skips, ¬ row.Lacks c.targetKeys → Unskipped set skips →
    (Nameless store row fragments →
      (fire set .create old (some row) store skips).records = []) ∧
    (¬ Nameless store row fragments →
      ∃ r, (fire set .create old (some row) store skips).records = [r] ∧
        TellsChild c target row (childName store row c.targetKeys fragments) r)

theorem NamesChildren.recordsNamed {target : Entity} {column : TrackedColumn}
    (h : NamesChildren c target fragments column set) (hsubject : column.OnSubject)
    (henabled : set.isEnabled .create = true) : RecordsNamed c target fragments set := by
  intro old row store skips hkeys hskips
  have hname : store.valueOver (some row) column.value =
      childName store row c.targetKeys fragments := by
    rw [h.value_eq]
    rfl
  have hnone : childName store row c.targetKeys fragments = none ↔
      Nameless store row fragments := childName_eq_none_iff hkeys
  rw [records_create_of_column h.columns_eq hsubject.value henabled hskips, hname]
  constructor
  case left =>
    intro hnameless
    rw [hnone.mpr hnameless]
    rfl
  case right =>
    intro hnamed
    have hsome : (childName store row c.targetKeys fragments).isSome = true :=
      Option.isSome_iff_ne_none.mpr (mt hnone.mp hnamed)
    -- A create binds the value to the new row, which is the row at hand.
    have hafter : (Scene.of .create old (some row) store skips).value (column.value.bind .new) =
        childName store row c.targetKeys fragments := by
      rw [Scene.value_bind_of_onRow _ _ hsubject.value]
      exact hname
    rw [if_pos hsome]
    exact ⟨_, rfl, h.name_eq, h.type_eq, rfl, h.entity_eq, value_entityKey h.key_eq rfl, rfl,
      hafter, (congrArg Option.isSome hafter).trans hsome⟩

/-! ## Collections of analyzed entities -/

/-- The set of the collection records the children that have a name, by the fragments of their
identifier. -/
structure RecordsChildren (m : Model) (c : Collection) (set : TriggerSet) : Prop where
  collection_eq : set.collection = some c.element
  records : ∃ target fragments, m.get? c.target = some target ∧ set.entity = target.name ∧
    Identifies m c target fragments ∧ RecordsNamed c target fragments set

theorem recordsChildren_of_planCollection (h : planCollection m d settings c = .ok set)
    (hresolves : ∃ target, m.get? c.target = some target ∧
      ∀ path ∈ c.identity.map (·.path), Tracking.resolves m target path = true)
    (hcreates : settings.ignoreCreates = false) : RecordsChildren m c set := by
  obtain ⟨target, htarget, hpaths⟩ := hresolves
  obtain ⟨fragments, hfragments, hphrase⟩ := exists_identifies hpaths
  obtain ⟨column, hnames⟩ := exists_namesChildren h htarget hphrase
  have hsubject : column.OnSubject :=
    Plan.onSubject_of_planCollection h (hnames.columns_eq ▸ List.mem_singleton_self column)
  have henabled := Plan.isEnabled_create (Plan.operations_of_planCollection h) hcreates
  exact ⟨hnames.collection_eq, target, fragments, htarget, hnames.entity_eq, hfragments,
    hnames.recordsNamed hsubject henabled⟩

/-- Whatever was analyzed is planned, and where creates are tracked the set of each collection
records new children: every child that has its key is recorded exactly once, whatever else its row
and the store hold, unless all fragments of the identifier by which it is to be known are missing
or empty; then it leaves no trace. -/
theorem recordsChildren_of_analyze {name : String} {a : Analysis} {settings' : Settings}
    (h : analyze m name settings = .ok a) (hcreates : settings'.ignoreCreates = false) :
    ∃ own sets, planAll m a.descriptor settings' = .ok (own.toList ++ sets) ∧
      (∀ set, own = some set → set.collection = none) ∧
      List.Forall₂ (RecordsChildren m) a.descriptor.collections sets := by
  obtain ⟨db, merged, findings, given, -, -, -, hsifts⟩ := Tracking.siftsPaths_of_analyze h
  have htables := Tracking.tables_of_analyze h
  obtain ⟨own, hown, -⟩ := Plan.exists_planEntity htables settings'
  obtain ⟨sets, hsets, -⟩ := Plan.exists_planCollections htables settings'
  refine ⟨own, sets, ?_, ?_, ?_⟩
  · rw [planAll, hown, hsets]
    rfl
  · rintro set rfl
    exact (Plan.table_of_planEntity hown).2.2.1
  · have hplanned := (List.forall₂_and_left _ _).mpr ⟨fun _ hc => hc, mapM_eq_ok_iff.mp hsets⟩
    exact hplanned.imp fun c set hset =>
      recordsChildren_of_planCollection hset.2 (hsifts.resolves_collection hset.1) hcreates

/-! ### Nested orders -/

namespace NestedOrders

/-- An association of a child to its order. -/
def order : Schema.Element where
  name := "order"
  type := "cds.Association"
  association := some { kind := .reference, target := "shop.Orders", keys := ["ID"] }

/-- A tracked composition of an order. -/
def children (name target : String) (directive : Schema.Directive) : Schema.Element where
  name := name
  type := "cds.Composition"
  association := some {
    kind := .composition, target := target, many := true, on := [⟨"order_ID", "ID"⟩] }
  directive := some directive

/-- Orders with items, which are known by their products, and notes, which are known by their
keys. -/
def orders : Entity where
  name := "shop.Orders"
  elements := [
    { name := "ID", isKey := true },
    children "items" "shop.Items" (.paths ["items.product"]),
    children "notes" "shop.Notes" (.marker true)]

def items : Entity where
  name := "shop.Items"
  elements := [{ name := "ID", isKey := true }, { name := "product" }, order]

def notes : Entity where
  name := "shop.Notes"
  elements := [{ name := "ID", isKey := true }, { name := "text" }, order]

def model : Model where
  entities := NameMap.ofList ([items, notes, orders].map fun entity => (entity.name, entity))
  checked := by decide

/-- A row of an item or a note of the order, with nothing but its keys. -/
def child (key : String) : Row := ⟨[("ID", key), ("order_ID", "o1")]⟩

/-- New items are recorded by their products, new notes by their keys. -/
theorem recordsChildren_orders : ∃ a own sets, analyze model "shop.Orders" {} = .ok a ∧
    a.descriptor.collections.map (fun c => (c.element, c.identity.map (·.path))) =
      [("items", ["product"]), ("notes", [])] ∧
    ({} : Settings).ignoreCreates = false ∧
    planAll model a.descriptor {} = .ok (own.toList ++ sets) ∧
    (∀ set, own = some set → set.collection = none) ∧
    List.Forall₂ (RecordsChildren model) a.descriptor.collections sets := by
  have hpaths : (analyze model "shop.Orders" {}).map (fun a =>
      a.descriptor.collections.map fun c => (c.element, c.identity.map (·.path))) =
      .ok [("items", ["product"]), ("notes", [])] := by
    decide +kernel
  obtain ⟨a, ha, hpaths⟩ := map_eq_ok.mp hpaths
  have hcreates : ({} : Settings).ignoreCreates = false := rfl
  obtain ⟨own, sets, hrecords⟩ := recordsChildren_of_analyze ha hcreates
  exact ⟨a, own, sets, ha, hpaths, hcreates, hrecords⟩

/-- Of a new item without a product nothing is recorded, although it has its key and nothing is
skipped; the note of the same row is recorded by the key. -/
theorem item_not_recorded : ∃ a items notes, analyze model "shop.Orders" {} = .ok a ∧
    planAll model a.descriptor {} = .ok [items, notes] ∧
    items.collection = some "items" ∧ items.primaryKey = ["ID"] ∧
    items.isEnabled .create = true ∧ Unskipped items {} ∧ ¬ (child "1").Lacks ["ID"] ∧
    (fire items .create none (some (child "1")) {} {}).records = [] ∧
    (fire notes .create none (some (child "1")) {} {}).records.map (·.after) = [some "1"] := by
  have hplanned : (analyze model "shop.Orders" {} >>= fun a =>
      (planAll model a.descriptor {}).map fun sets => sets.map fun set =>
        (decide (set.collection = some "items" ∧ set.primaryKey = ["ID"] ∧
            set.isEnabled .create = true ∧ Unskipped set {}),
          (fire set .create none (some (child "1")) {} {}).records.map (·.after))) =
      .ok [(true, []), (false, [some "1"])] := by
    decide +kernel
  obtain ⟨a, ha, hplanned⟩ := bind_eq_ok.mp hplanned
  obtain ⟨sets, hsets, hplanned⟩ := map_eq_ok.mp hplanned
  obtain ⟨items, rest, rfl, hitems, hrest⟩ := List.map_eq_cons_iff.mp hplanned
  obtain ⟨notes, rfl, hnotes⟩ := List.map_eq_singleton_iff.mp hrest
  obtain ⟨hset, hnone⟩ := Prod.mk.inj hitems
  obtain ⟨hcollection, hkey, henabled, hskips⟩ := of_decide_eq_true hset
  exact ⟨a, items, notes, ha, hsets, hcollection, hkey, henabled, hskips, by decide,
    List.map_eq_nil_iff.mp hnone, congrArg Prod.snd hnotes⟩

end NestedOrders

end ChangeTracking.Firing
