import ChangeTracking.Proofs.Plan.Owners
import ChangeTracking.Proofs.Plan.Policies
import ChangeTracking.Proofs.Plan.Success
import ChangeTracking.Proofs.Schema.Names

/-!
# Spellings

Planning makes no names of its own: it takes the names of the model, writes dotted ones
flat, and puts names together by underscores.  So a property of names that is kept by these
steps holds of all names in the planned sets, if only it holds of the names in the model.
-/

namespace ChangeTracking.Plan

open Schema (ColumnPair Element Entity Hop Model Route flatName)
open Tracking (Analysis Collection Descriptor IdentityField RootLink analyze)

/-- The names of the model have the property, and it is kept where names are put together. -/
structure Spelling (m : Model) (P : String → Prop) : Prop where
  names : ∀ e ∈ m.all, ∀ name ∈ e.names, P name
  append : ∀ s t, P s → P t → P (s ++ t)
  flat : ∀ name, P name → P (flatName name)
  mark : P "_"
  locale : P "locale"

/-- All names in the expression itself have the property. -/
def Spells (P : String → Prop) : Expr → Prop
  | .text value => P value
  | .column _ name => P name
  | .variable name => P name
  | .lookup table name filters => P table ∧ P name ∧ ∀ f ∈ filters, P f.1
  | _ => True

instance (P : String → Prop) [DecidablePred P] : DecidablePred (Spells P)
  | .null => inferInstanceAs (Decidable True)
  | .text value => inferInstanceAs (Decidable (P value))
  | .column _ name => inferInstanceAs (Decidable (P name))
  | .variable name => inferInstanceAs (Decidable (P name))
  | .locale => inferInstanceAs (Decidable True)
  | .lookup table name filters =>
      inferInstanceAs (Decidable (P table ∧ P name ∧ ∀ f ∈ filters, P f.1))
  | .keyJoin _ => inferInstanceAs (Decidable True)
  | .listJoin _ => inferInstanceAs (Decidable True)
  | .firstOf _ => inferInstanceAs (Decidable True)
  | .encoded _ _ => inferInstanceAs (Decidable True)

/-- The policy of names: those that are read have the property. -/
def spelling (P : String → Prop) : Policy where
  onRow := P
  inTable table found column := P table ∧ P column ∧ ∀ name ∈ found, P name
  emptyKeys := True

variable {P : String → Prop}

theorem spells_of_allows {e : Expr} (h : (spelling P).Allows e) : Spells P e := by
  cases e with
  | column row name => exact h
  | lookup table name filters =>
      refine ⟨h.1, h.2.1, fun f hf => h.2.2 f.1 (List.mem_map_of_mem hf)⟩
  | _ => trivial

theorem Spells.bind (row : RowRole) {e : Expr} (h : Spells P e) : Spells P (e.bind row) := by
  cases e with
  | column role name => cases role <;> exact h
  | lookup table name filters =>
      refine ⟨h.1, h.2.1, ?_⟩
      rw [Expr.bindFilters_eq_map]
      intro f hf
      obtain ⟨filter, hfilter, rfl⟩ := List.mem_map.mp hf
      exact h.2.2 filter hfilter
  | _ => exact h

/-- At every depth all names in the expression have the property. -/
def Expr.IsSpelled (P : String → Prop) (e : Expr) : Prop := e.Everywhere (Spells P)

instance (P : String → Prop) [DecidablePred P] : DecidablePred (Expr.IsSpelled P) :=
  fun e => inferInstanceAs (Decidable (e.Everywhere (Spells P)))

theorem Expr.isSpelled_null : Expr.null.IsSpelled P := Expr.everywhere_null.mpr trivial

theorem Expr.isSpelled_text {value : String} (h : P value) : (Expr.text value).IsSpelled P :=
  Expr.everywhere_text.mpr h

theorem Expr.isSpelled_column {row : RowRole} {name : String} (h : P name) :
    (Expr.column row name).IsSpelled P :=
  Expr.everywhere_column.mpr h

theorem Expr.isSpelled_ofLocal {name : String} (h : P name) : (Expr.variable name).IsSpelled P :=
  Expr.everywhere_variable.mpr h

theorem Expr.IsSpelled.bind {e : Expr} (h : e.IsSpelled P) (row : RowRole) :
    (e.bind row).IsSpelled P :=
  Expr.Everywhere.bind (fun _ ht => ht.bind row) h

/-! ## Names of elements -/

/-- The names of both columns have the property. -/
def PairSpelled (P : String → Prop) (pair : ColumnPair) : Prop := P pair.target ∧ P pair.source

section Elements

variable {m : Model} {e : Entity} {element : Element}

theorem Spelling.ofEntity (h : Spelling m P) {name : String} (hget : m.get? name = some e) :
    ∀ n ∈ e.names, P n :=
  h.names e (Schema.Model.mem_all_of_get? hget)

/-- The names in the element have the property. -/
def ElementSpelled (P : String → Prop) (element : Element) : Prop := ∀ n ∈ element.names, P n

theorem Spelling.ofElement (h : Spelling m P) {name : String} (hget : m.get? name = some e)
    (helement : element ∈ e.elements) : ElementSpelled P element := fun _ hn =>
  h.ofEntity hget _ (Schema.Entity.mem_names_of_mem_elements helement hn)

theorem ElementSpelled.name (h : ElementSpelled P element) : P element.name :=
  h element.name List.mem_cons_self

theorem ElementSpelled.association (h : ElementSpelled P element) {a : Schema.Association}
    (ha : element.association = some a) : ∀ n ∈ a.names, P n := by
  intro n hn
  refine h n (List.mem_cons_of_mem _ ?_)
  rw [ha]
  exact List.mem_append_left _ hn

theorem ElementSpelled.keys (h : ElementSpelled P element) {a : Schema.Association}
    (ha : element.association = some a) : ∀ key ∈ a.keys, P key := fun key hkey =>
  h.association ha key (List.mem_cons_of_mem _ (List.mem_append_left _ hkey))

theorem ElementSpelled.terms (h : ElementSpelled P element) {a : Schema.Association}
    (ha : element.association = some a) :
    ∀ term ∈ a.on, PairSpelled P ⟨term.target, term.source⟩ := by
  intro term hterm
  have hnames : ∀ n ∈ [term.target, term.source], P n := fun n hn =>
    h.association ha n (List.mem_cons_of_mem _
      (List.mem_append_right _ (List.mem_flatMap.mpr ⟨term, hterm, hn⟩)))
  exact ⟨hnames _ (by simp), hnames _ (by simp)⟩

theorem ElementSpelled.foreignKey (hm : Spelling m P) (h : ElementSpelled P element)
    {a : Schema.Association} (ha : element.association = some a) {key : String}
    (hkey : key ∈ a.keys) : P (flatName key) ∧ P (element.name ++ "_" ++ flatName key) :=
  have hflat := hm.flat key (h.keys ha key hkey)
  ⟨hflat, hm.append _ _ (hm.append _ _ h.name hm.mark) hflat⟩

theorem ElementSpelled.foreignKeyColumns (hm : Spelling m P) (h : ElementSpelled P element) :
    ∀ column ∈ element.foreignKeyColumns, P column := by
  unfold Element.foreignKeyColumns
  split
  · exact List.forall_mem_nil _
  · rename_i a ha
    intro column hcolumn
    obtain ⟨key, hkey, rfl⟩ := List.mem_map.mp hcolumn
    exact (h.foreignKey hm ha hkey).2

theorem ElementSpelled.keyColumns (hm : Spelling m P) (h : ElementSpelled P element) :
    ∀ column ∈ Tracking.keyColumns element, P column := by
  unfold Tracking.keyColumns
  split
  · exact h.foreignKeyColumns hm
  · exact List.forall_mem_singleton.mpr h.name

theorem ElementSpelled.onPairs (h : ElementSpelled P element) :
    ∀ pair ∈ Tracking.onPairs element, PairSpelled P pair := by
  unfold Tracking.onPairs
  split
  · exact List.forall_mem_nil _
  · rename_i a ha
    intro pair hpair
    obtain ⟨term, hterm, rfl⟩ := List.mem_map.mp hpair
    exact h.terms ha term hterm

theorem ElementSpelled.keyPairs (hm : Spelling m P) (h : ElementSpelled P element) :
    ∀ pair ∈ Tracking.keyPairs element, PairSpelled P pair := by
  unfold Tracking.keyPairs
  split
  · exact List.forall_mem_nil _
  · rename_i a ha
    intro pair hpair
    rw [Element.foreignKeyColumns, ha, List.zipWith_map_right, List.zipWith_self] at hpair
    obtain ⟨key, hkey, rfl⟩ := List.mem_map.mp hpair
    exact h.foreignKey hm ha hkey

theorem ElementSpelled.joinsOf (hm : Spelling m P) (h : ElementSpelled P element)
    {a : Schema.Association} (ha : element.association = some a) :
    ∀ pair ∈ Schema.joinsOf element.name a, PairSpelled P pair := by
  unfold Schema.joinsOf
  split
  · intro pair hpair
    obtain ⟨key, hkey, rfl⟩ := List.mem_map.mp hpair
    exact h.foreignKey hm ha hkey
  · intro pair hpair
    obtain ⟨term, hterm, rfl⟩ := List.mem_map.mp hpair
    exact h.terms ha term hterm

theorem Spelling.primaryKey (h : Spelling m P) {name : String} (hget : m.get? name = some e) :
    ∀ column ∈ Tracking.primaryKey e, P column := by
  intro column hcolumn
  obtain ⟨element, helement, hcolumn⟩ := List.mem_flatMap.mp hcolumn
  exact (h.ofElement hget (List.mem_filter.mp helement).1).keyColumns h column hcolumn

/-- The link of a child compares columns whose names have the property. -/
theorem Spelling.rootLink (h : Spelling m P) {child root : Entity} {name : String}
    (hget : m.get? name = some child) {link : RootLink}
    (hlink : Tracking.rootLink child root = some link) :
    ∀ pair ∈ link.joins, PairSpelled P pair := by
  rcases Tracking.rootLink_cases hlink with
    ⟨element, helement, -, rfl⟩ | ⟨element, helement, -, rfl⟩
  · exact (h.ofElement hget helement).keyPairs h
  · exact (h.ofElement hget (List.mem_of_find?_eq_some helement)).onPairs

end Elements

/-! ## Routes -/

/-- The names of the place have the property. -/
def Place.IsSpelled (P : String → Prop) : Place → Prop
  | .row => True
  | .table name found => P name ∧ ∀ column ∈ found, P column

/-- The names in the hop have the property. -/
structure HopSpelled (P : String → Prop) (hop : Hop) : Prop where
  entity : P hop.entity
  joins : ∀ pair ∈ hop.joins, PairSpelled P pair

/-- The names in the route have the property. -/
structure RouteSpelled (P : String → Prop) (route : Route) : Prop where
  hops : ∀ hop ∈ route.hops, HopSpelled P hop
  columns : ∀ column ∈ route.columns, P column

namespace Place

variable {place : Place}

theorem IsSpelled.at (h : place.IsSpelled P) {column : String} (hcolumn : P column) :
    (spelling P).At place column := by
  cases place with
  | row => exact hcolumn
  | table name found => exact ⟨h.1, hcolumn, h.2⟩

theorem isSpelled_row : row.IsSpelled P := trivial

theorem isSpelled_table {name : String} (hname : P name) {pairs : List ColumnPair}
    (hpairs : ∀ pair ∈ pairs, PairSpelled P pair) :
    (table name (pairs.map (·.target))).IsSpelled P := by
  refine ⟨hname, fun column hcolumn => ?_⟩
  obtain ⟨pair, hpair, rfl⟩ := List.mem_map.mp hcolumn
  exact (hpairs pair hpair).1

theorem IsSpelled.readBack (h : place.IsSpelled P) {entity : String} (hentity : P entity)
    {key : List String} (hkey : ∀ column ∈ key, P column) :
    (place.readBack entity key).IsSpelled P := by
  cases place with
  | row => exact ⟨hentity, hkey⟩
  | table name found => exact h

theorem IsSpelled.along (h : place.IsSpelled P) {hops : List Hop}
    (hhops : ∀ hop ∈ hops, HopSpelled P hop) :
    (spelling P).AllowsHops place hops ∧ (place.along hops).IsSpelled P := by
  induction hops generalizing place with
  | nil => exact ⟨trivial, h⟩
  | cons hop hops ih =>
      obtain ⟨hhop, hhops⟩ := List.forall_mem_cons.mp hhops
      obtain ⟨hallows, hend⟩ := ih (isSpelled_table hhop.entity hhop.joins) hhops
      exact ⟨⟨fun pair hpair => h.at (hhop.joins pair hpair).2, hallows⟩, hend⟩

end Place

section Routes

variable {m : Model} {current : Entity} {route : Route}

theorem Spelling.element? (h : Spelling m P) (hget : m.get? current.name = some current)
    {segment : String} {element : Element} (helement : current.element? segment = some element) :
    P segment := by
  obtain ⟨hmem, rfl⟩ := Schema.element_of_element? helement
  exact (h.ofElement hget hmem).name

theorem Spelling.endsAt (h : Spelling m P) (hget : m.get? current.name = some current)
    (hends : route.EndsAt current) : RouteSpelled P route := by
  refine ⟨?_, ?_⟩
  · rw [hends.endsOn.1]
    exact List.forall_mem_nil _
  · cases hends with
    | element helement => exact List.forall_mem_singleton.mpr (h.element? hget helement)
    | foreignKeys helement =>
        exact (h.ofElement hget (Schema.element_of_element? helement).1).foreignKeyColumns h
    | key helement hassociation hkey =>
        obtain ⟨hmem, rfl⟩ := Schema.element_of_element? helement
        have hspelled := h.ofElement hget hmem
        exact List.forall_mem_singleton.mpr
          (h.append _ _ (h.append _ _ hspelled.name h.mark) (hspelled.keys hassociation _ hkey))

/-- A hop leads to an entity of the model. -/
theorem Spelling.hop (h : Spelling m P) {element : Element} (helement : ElementSpelled P element)
    {a : Schema.Association} (ha : element.association = some a) {hop : Hop} {target : Entity}
    (hhop : m.hop element.name a = .ok (hop, target)) :
    m.get? target.name = some target ∧ HopSpelled P hop := by
  unfold Model.hop at hhop
  split at hhop
  · cases hhop
  · split at hhop
    · cases hhop
    · rename_i next hnext
      split at hhop
      · cases hhop
      · rename_i owner howner
        cases hhop
        have hget := (Schema.Model.get?_databaseEntity hnext howner).1
        exact ⟨hget, h.ofEntity hget _ List.mem_cons_self, helement.joinsOf h ha⟩

/-- All names in a route from an entity of the model have the property. -/
theorem Spelling.leads (h : Spelling m P) (hget : m.get? current.name = some current)
    (hroute : m.Leads current route) : RouteSpelled P route := by
  -- On the route: a hop leads to an entity of the model again, where the rest starts.
  induction hroute using Schema.Model.Leads.ends_or_hop with
  | ends _ hends => exact h.endsAt hget hends
  | hop helement hassociation hhop _ ih =>
      obtain ⟨hmem, rfl⟩ := Schema.element_of_element? helement
      obtain ⟨htarget, hspelled⟩ := h.hop (h.ofElement hget hmem) hassociation hhop
      obtain ⟨hhops, hcolumns⟩ := ih htarget
      exact ⟨List.forall_mem_cons.mpr ⟨hspelled, hhops⟩, hcolumns⟩

variable {place : Place}

theorem Spelling.translationKey (h : Spelling m P) (holder : String) (hplace : place.IsSpelled P) :
    ∀ column ∈ place.translationKey m holder, P column := by
  cases place with
  | table name found => exact hplace.2
  | row =>
      rw [Place.translationKey, keyNames]
      cases hget : m.get? holder with
      | none => exact List.forall_mem_nil _
      | some e =>
          intro column hcolumn
          obtain ⟨element, helement, rfl⟩ := List.mem_map.mp hcolumn
          exact (h.ofElement hget (List.mem_filter.mp helement).1).name

theorem Spelling.allowsRoute (h : Spelling m P) (hplace : place.IsSpelled P)
    (hget : m.get? current.name = some current) {path : String}
    (hroute : m.route current path = .ok route) : (spelling P).AllowsRoute m place route := by
  obtain ⟨hhops, hcolumns⟩ := h.leads hget (Schema.Model.leads_of_route hroute)
  obtain ⟨hallows, hend⟩ := hplace.along hhops
  refine {
    hops := hallows
    columns := fun column hcolumn => hend.at (hcolumns column hcolumn)
    translations := fun _ texts htexts column hcolumn => ⟨?_, hcolumns column hcolumn, ?_⟩
    translationKey := fun _ _ => h.translationKey route.holder Place.isSpelled_row }
  · obtain ⟨holder, hholder, htexts⟩ := Option.bind_eq_some_iff.mp htexts
    refine h.ofEntity hholder texts (List.mem_cons_of_mem _ (List.mem_append_left _ ?_))
    exact Option.mem_toList.mpr htexts
  · exact List.forall_mem_append.mpr
      ⟨h.translationKey route.holder hend, List.forall_mem_singleton.mpr h.locale⟩

theorem Spelling.allowsFields (h : Spelling m P) (hplace : place.IsSpelled P)
    (hget : m.get? current.name = some current) {key : List String}
    (hkey : ∀ column ∈ key, P column) (fields : List IdentityField) :
    (spelling P).AllowsFields m current key place fields := by
  intro field _ route hroute
  refine h.allowsRoute ?_ hget hroute
  unfold fieldPlace
  split
  · exact hplace.readBack (h.ofEntity hget _ List.mem_cons_self) hkey
  · exact hplace

theorem Spelling.allowsOwner (h : Spelling m P) {child : String} (hchild : P child)
    {childKey : List String} (hkey : ∀ column ∈ childKey, P column) {link : RootLink}
    (hlink : ∀ pair ∈ link.joins, PairSpelled P pair) {root : Entity}
    (hget : m.get? root.name = some root) (fields : List IdentityField) :
    (spelling P).AllowsOwner m child childKey link root fields := by
  have hroot := Place.isSpelled_table (h.ofEntity hget _ List.mem_cons_self) hlink
  refine ⟨.inr trivial, fun pair hpair => ?_, h.allowsFields hroot hget hroot.2 fields⟩
  cases link with
  | foreignKeys joins => exact (hlink pair hpair).2
  | backReference field joins =>
      have hplace : (Place.table child childKey).IsSpelled P := ⟨hchild, hkey⟩
      exact hplace.at (hlink pair hpair).2

end Routes

/-! ## Planned sets -/

/-- All names in the planned set have the property. -/
structure TriggerSet.IsSpelled (P : String → Prop) (s : TriggerSet) : Prop where
  entity : P s.entity
  collection : ∀ element, s.collection = some element → P element
  service : ∀ service, s.service = some service → P service
  owner : ∀ o, s.owner = some o → P o.entity
  columns : ∀ c ∈ s.columns, P c.name
  watched : ∀ c ∈ s.columns, ∀ column ∈ c.watched, P column
  expressions : ∀ e ∈ s.expressions, e.IsSpelled P

section Sets

variable {m : Model} {settings : Settings} {name : String} {a : Analysis}
  {sets : List TriggerSet} {set : TriggerSet}

/-- A tracked attribute is compared by columns whose names have the property. -/
theorem Spelling.watched (h : Spelling m P) {db : Entity} {element : Element}
    (helement : ElementSpelled P element) {tracked : Tracking.Attribute}
    (has : Tracking.TrackedAs m db element tracked) :
    P tracked.name ∧ ∀ column ∈ tracked.watched, P column := by
  cases has with
  | plain _ => exact ⟨helement.name, List.forall_mem_singleton.mpr helement.name⟩
  | relation paths _ _ =>
      refine ⟨helement.name, ?_⟩
      rw [Tracking.watched_relationAttribute]
      split
      · intro column hcolumn
        obtain ⟨pair, hpair, rfl⟩ := List.mem_map.mp hcolumn
        exact (helement.onPairs pair hpair).2
      · exact helement.foreignKeyColumns h

theorem Spelling.tracked (h : Spelling m P) (ha : analyze m name settings = .ok a)
    {tracked : Tracking.Attribute} (htracked : tracked ∈ a.descriptor.attributes) :
    P tracked.name ∧ ∀ column ∈ tracked.watched, P column := by
  obtain ⟨db, element, hget, helement, -, has⟩ := Tracking.trackedAs_of_mem_attributes ha htracked
  exact h.watched (h.ofElement hget helement) has

theorem Spelling.allowsOwn (h : Spelling m P) (ha : analyze m name settings = .ok a)
    {entity : Entity} (hget : m.get? a.descriptor.entity = some entity) :
    (spelling P).AllowsOwn m a.descriptor entity := by
  obtain ⟨db, _, hdb, -, -, hkey, -⟩ := database_of_analyze ha
  have hprimary : ∀ column ∈ a.descriptor.primaryKey, P column := by
    rw [hkey]
    exact h.primaryKey hdb
  have hregistered : m.get? entity.name = some entity := by
    rw [Schema.Model.name_of_get? hget, hget]
  have hname : P a.descriptor.entity := by
    rw [← Schema.Model.name_of_get? hget]
    exact h.ofEntity hget _ List.mem_cons_self
  refine {
    key := ⟨.inr trivial, hprimary⟩
    identity := h.allowsFields Place.isSpelled_row hregistered hprimary _
    owner := fun binding hbinding root hroot => ?_
    watched := fun tracked htracked => ⟨.inr trivial, (h.tracked ha htracked).2⟩
    labels := fun _ _ _ _ _ hroute => h.allowsRoute Place.isSpelled_row hregistered hroute }
  obtain ⟨child, _, hchild, -, hlink⟩ := Tracking.link_of_binding ha hbinding
  rw [← Schema.Model.name_of_get? hroot] at hroot
  exact h.allowsOwner hname hprimary (h.rootLink hchild hlink) hroot _

theorem Spelling.allowsCollection (h : Spelling m P) (ha : analyze m name settings = .ok a)
    {c : Collection} (hc : c ∈ a.descriptor.collections) {target : Entity}
    (hget : m.get? c.target = some target) :
    (spelling P).AllowsCollection m a.descriptor c target := by
  obtain ⟨db, element, hdb, -, child, _, hchild, -, rfl⟩ :=
    Tracking.collectedAs_of_mem_collections ha hc
  rw [hchild] at hget
  cases hget
  refine {
    key := ⟨.inr trivial, h.primaryKey hchild⟩
    identity := h.allowsFields Place.isSpelled_row hchild (h.primaryKey hchild) _
    owner := fun link hlink root hroot => ?_ }
  rw [← Schema.Model.name_of_get? hroot] at hroot
  exact h.allowsOwner (h.ofEntity hchild _ List.mem_cons_self) (h.primaryKey hchild)
    (h.rootLink hchild hlink) hroot _

theorem Spelling.service (h : Spelling m P) (ha : analyze m name settings = .ok a) :
    ∀ service, a.descriptor.service = some service → P service := by
  intro service hservice
  obtain ⟨e, he, rfl⟩ := Tracking.service_of_analyze ha hservice
  exact h.names e he _ List.mem_cons_self

theorem Spelling.ownerName (h : Spelling m P)
    (hplan : planAll m a.descriptor settings = .ok sets) (hset : set ∈ sets) {o : Owner}
    (ho : set.owner = some o) : P o.entity := by
  obtain ⟨_, -, howner⟩ := identity_of_planAll hplan hset
  obtain ⟨_, _, _, howner⟩ := howner o ho
  obtain ⟨root, hroot, hname⟩ := entity_of_owner howner
  rw [hname]
  exact h.ofEntity hroot _ List.mem_cons_self

/-- All names in the own set of an entity have the property. -/
theorem Spelling.ownSet (h : Spelling m P) (ha : analyze m name settings = .ok a)
    (hplan : planAll m a.descriptor settings = .ok sets) (hset : set ∈ sets)
    (hown : planEntity m a.descriptor settings = .ok (some set)) : set.IsSpelled P := by
  obtain ⟨-, hentity, hnone, -⟩ := table_of_planEntity hown
  obtain ⟨entity, hget, hcolumns⟩ := columns_of_planEntity hown
  have hallows := Policy.AllowsOwn.allowsSet (fun entity hget => h.allowsOwn ha hget) hown
  rw [Schema.Model.entity_eq_ok_iff] at hget
  refine {
    entity := ?_
    collection := fun element hsome => by rw [hnone] at hsome; cases hsome
    service := (history_of_planAll hplan hset).1 ▸ h.service ha
    owner := fun o ho => h.ownerName hplan hset ho
    columns := fun c hc => ?_
    watched := hallows.watched
    expressions := fun e he => (hallows.expressions e he).mono fun _ => spells_of_allows }
  · rw [hentity, ← Schema.Model.name_of_get? hget]
    exact h.ofEntity hget _ List.mem_cons_self
  · rw [hcolumns] at hc
    obtain ⟨tracked, htracked, rfl⟩ := List.mem_map.mp hc
    exact (h.tracked ha htracked).1

/-- All names in the set of a collection have the property. -/
theorem Spelling.collectionSet (h : Spelling m P) (ha : analyze m name settings = .ok a)
    (hplan : planAll m a.descriptor settings = .ok sets) (hset : set ∈ sets) {c : Collection}
    (hc : c ∈ a.descriptor.collections)
    (hcollection : planCollection m a.descriptor settings c = .ok set) : set.IsSpelled P := by
  obtain ⟨target, htarget, hentity, hsome, -⟩ := table_of_planCollection hcollection
  obtain ⟨column, hcolumns, hname, -, -⟩ := column_of_planCollection hcollection
  obtain ⟨db, element, hdb, helement, _, _, -, -, heq⟩ :=
    Tracking.collectedAs_of_mem_collections ha hc
  have hallows := Policy.AllowsCollection.allowsSet
    (fun target hget => h.allowsCollection ha hc hget) hcollection
  rw [Schema.Model.entity_eq_ok_iff] at htarget
  have helementName : P c.element := by
    rw [heq]
    exact (h.ofElement hdb helement).name
  refine {
    entity := hentity ▸ h.ofEntity htarget _ List.mem_cons_self
    collection := fun element hsome' => ?_
    service := (history_of_planAll hplan hset).1 ▸ h.service ha
    owner := fun o ho => h.ownerName hplan hset ho
    columns := ?_
    watched := hallows.watched
    expressions := fun e he => (hallows.expressions e he).mono fun _ => spells_of_allows }
  · rw [hsome] at hsome'
    exact Option.some.inj hsome' ▸ helementName
  · rw [hcolumns, List.forall_mem_singleton, hname]
    exact helementName

/-- All names in a planned set have the property that the names of the model have. -/
theorem Spelling.plannedSet (h : Spelling m P) (ha : analyze m name settings = .ok a)
    (hplan : planAll m a.descriptor settings = .ok sets) (hset : set ∈ sets) : set.IsSpelled P := by
  rcases mem_planAll hplan hset with hown | ⟨c, hc, hcollection⟩
  · exact h.ownSet ha hplan hset hown
  · exact h.collectionSet ha hplan hset hc hcollection

/-- The types that are recorded with a planned set are declared in the model, or the types of
associations. -/
theorem types_of_planAll (ha : analyze m name settings = .ok a)
    (hplan : planAll m a.descriptor settings = .ok sets) (hset : set ∈ sets) :
    ∀ c ∈ set.columns, (∃ e ∈ m.all, ∃ element ∈ e.elements, c.type = element.type) ∨
      c.type ∈ ["cds.Association", "cds.Composition"] := by
  rcases mem_planAll hplan hset with hown | ⟨collection, -, hcollection⟩
  · obtain ⟨entity, -, hcolumns⟩ := columns_of_planEntity hown
    rw [hcolumns]
    intro c hc
    obtain ⟨tracked, htracked, rfl⟩ := List.mem_map.mp hc
    obtain ⟨db, element, hget, helement, -, has⟩ := Tracking.trackedAs_of_mem_attributes ha htracked
    cases has with
    | plain _ => exact .inl ⟨db, Schema.Model.mem_all_of_get? hget, element, helement, rfl⟩
    | @relation association _ _ _ =>
        right
        show (Tracking.relationOf association.kind).2 ∈ _
        cases association.kind <;> decide
  · obtain ⟨column, hcolumns, -, htype, -⟩ := column_of_planCollection hcollection
    rw [hcolumns, List.forall_mem_singleton, htype]
    exact .inr (by decide)

/-- Each column of a planned set is suppressed by the flag of a scope. -/
theorem skipFlags_of_planAll (hplan : planAll m a.descriptor settings = .ok sets)
    (hset : set ∈ sets) : ∀ c ∈ set.columns, ∃ scope : Skip.Scope, c.skipFlag = scope.flagName := by
  rcases mem_planAll hplan hset with hown | ⟨collection, -, hcollection⟩
  · obtain ⟨entity, -, hcolumns⟩ := columns_of_planEntity hown
    rw [hcolumns]
    intro c hc
    obtain ⟨tracked, -, rfl⟩ := List.mem_map.mp hc
    exact ⟨.element entity.name tracked.name, rfl⟩
  · obtain ⟨column, hcolumns, -, -, hflag⟩ := column_of_planCollection hcollection
    rw [hcolumns, List.forall_mem_singleton, hflag]
    exact ⟨_, rfl⟩

end Sets

/-! ## What a trigger evaluates -/

/-- All names in the identity have the property. -/
structure Identity.IsSpelled (P : String → Prop) (i : Identity) : Prop where
  values : ∀ v ∈ i.values, v.2.IsSpelled P
  rootEntity : ∀ entity, i.rootEntity = some entity → P entity

theorem Identity.IsSpelled.fromLocals {i : Identity} (h : i.IsSpelled P)
    (hnames : ∀ name ∈ i.values.map Prod.fst, P name) : i.fromLocals.IsSpelled P := by
  have hlocal (name : String) (value : Expr) (hname : P name) :
      (localFor name value).IsSpelled P := by
    unfold localFor
    split
    · exact Expr.isSpelled_null
    · exact Expr.isSpelled_ofLocal hname
  refine ⟨fun v hv => ?_, h.rootEntity⟩
  simp only [Identity.values, List.map_cons, List.map_nil, List.forall_mem_cons] at hnames
  obtain ⟨hkey, hid, hrootKey, hrootId, -⟩ := hnames
  simp only [Identity.values, Identity.fromLocals, List.mem_cons, List.not_mem_nil, or_false] at hv
  rcases hv with rfl | rfl | rfl | rfl
  · exact hlocal _ _ hkey
  · exact hlocal _ _ hid
  · exact hlocal _ _ hrootKey
  · exact hlocal _ _ hrootId

namespace TriggerSet.IsSpelled

variable {s : TriggerSet} {c : TrackedColumn}

theorem value (h : s.IsSpelled P) (hc : c ∈ s.columns) (row : RowRole) :
    (c.valueOn row).IsSpelled P :=
  (((TriggerSet.forall_mem_expressions.mp h.expressions).2.2.2 c hc).1).bind row

theorem label (h : s.IsSpelled P) (hc : c ∈ s.columns) (row : RowRole) :
    (c.labelOn row).IsSpelled P := by
  unfold TrackedColumn.labelOn
  split
  · rename_i label hlabel
    have hlabel := ((TriggerSet.forall_mem_expressions.mp h.expressions).2.2.2 c hc).2 label hlabel
    exact hlabel.bind row
  · exact Expr.isSpelled_null

/-- All names that an operation records for a column have the property. -/
theorem transition (h : s.IsSpelled P) (hc : c ∈ s.columns) (op : Operation) :
    ∀ e ∈ (c.transition op).toList, e.IsSpelled P := by
  have hnull : Expr.null.IsSpelled P := Expr.isSpelled_null
  have hvalue := h.value hc
  have hlabel := h.label hc
  cases op <;>
    simp [TrackedColumn.transition, Transition.toList, hnull, hvalue, hlabel]

/-- All names in the identity of the set's records have the property. -/
theorem identity (h : s.IsSpelled P) (row : RowRole) : (s.identity row).IsSpelled P := by
  refine ⟨TriggerSet.forall_mem_identity row Expr.isSpelled_null fun e he =>
    Expr.IsSpelled.bind (h.expressions e he) row, fun entity hentity => ?_⟩
  obtain ⟨o, ho, rfl⟩ := Option.map_eq_some_iff.mp hentity
  exact h.owner o ho

end TriggerSet.IsSpelled

end ChangeTracking.Plan
