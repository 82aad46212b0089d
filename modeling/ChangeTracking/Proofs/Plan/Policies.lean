import ChangeTracking.Proofs.Plan.PlannedSets
import ChangeTracking.Proofs.Plan.Readings
import ChangeTracking.Proofs.Plan.Subterms
import ChangeTracking.Proofs.Schema.Routes
import Mathlib.Control.Monad.Basic

/-!
# Reading policies

A policy says which columns may be read: of the row at hand, and of the record of a table
that is found by the values of some columns.  Planning reads records at places, and each hop
of a route leads from one place to the next.  So what a planned set reads is known from its
keys, its links and the routes of its paths; a policy that allows these allows everything
that the set's expressions read, at every depth.
-/

namespace ChangeTracking.Plan

open Schema (Entity Hop Model Route)
open Tracking (Attribute Collection Descriptor IdentityField RootLink)

/-- Which columns may be read. -/
structure Policy where
  /-- The column of the row at hand. -/
  onRow (column : String) : Prop
  /-- The column of the record of `table` that is found by values of the columns `found`. -/
  inTable (table : String) (found : List String) (column : String) : Prop
  /-- A key may be made of no columns. -/
  emptyKeys : Prop

/-! ## Places -/

/-- Where a record is read: it is the row at hand, or found in a table by some columns. -/
inductive Place
  | row
  | table (name : String) (found : List String)
  deriving DecidableEq

namespace Place

/-- The place that a hop leads to. -/
def behind (hop : Hop) : Place := .table hop.entity (hop.joins.map (·.target))

def along (place : Place) (hops : List Hop) : Place := hops.foldl (fun _ hop => behind hop) place

/-- The place of the same record in its own table. -/
def readBack (place : Place) (entity : String) (key : List String) : Place :=
  match place with
  | row => table entity key
  | table name found => table name found

/-- The columns by which the translations of the record are found. -/
def translationKey (m : Model) (holder : String) : Place → List String
  | row => (keyNames m holder).getD []
  | table _ found => found

end Place

namespace Origin

/-- The place of the record that an origin reads. -/
def place : Origin → Place
  | row _ => .row
  | keyed entity filters => .table entity (filters.map Prod.fst)

@[simp] theorem place_row (role : RowRole) : (row role).place = .row := rfl

theorem place_hop (origin : Origin) (hop : Hop) : (origin.hop hop).place = .behind hop := by
  rw [Origin.hop, place, List.map_map]
  rfl

theorem place_along (origin : Origin) (hops : List Hop) :
    (origin.along hops).place = origin.place.along hops := by
  induction hops generalizing origin with
  | nil => rfl
  | cons hop hops ih =>
      rw [along, List.foldl_cons, ← along, ih, place_hop]
      rfl

theorem place_readBack (origin : Origin) (entity : String) (key : List String) :
    (origin.readBack entity key).place = origin.place.readBack entity key := by
  cases origin with
  | row role => simp [readBack, place, Place.readBack, Function.comp_def]
  | keyed table filters => rfl

end Origin

/-- The place at which an identifier field is read. -/
def fieldPlace (place : Place) (entity : Entity) (key : List String) (field : IdentityField)
    (route : Route) : Place :=
  if !field.onRow && route.isLocal then place.readBack entity.name key else place

theorem place_fieldOrigin {m : Model} {entity : Entity} {field : IdentityField} {route : Route}
    (h : m.route entity field.path = .ok route) (key : List String) (origin : Origin) :
    (fieldOrigin m entity key origin field).place =
      fieldPlace origin.place entity key field route := by
  rw [fieldOrigin, h, fieldPlace]
  dsimp only
  split
  · exact origin.place_readBack entity.name key
  · rfl

/-- The place at which the link of a child is read. -/
def linkPlace (child : String) (childKey : List String) : RootLink → Place
  | .foreignKeys _ => .row
  | .backReference .. => .table child childKey

theorem place_linkOrigin (child : String) (childKey : List String) (link : RootLink) :
    (linkOrigin child childKey link).place = linkPlace child childKey link := by
  cases link with
  | foreignKeys joins => rfl
  | backReference field joins => exact Origin.place_readBack (.row .subject) child childKey

/-! ## What a policy allows -/

namespace Policy

variable (P : Policy)

/-- The column may be read at the place. -/
def At : Place → String → Prop
  | .row, column => P.onRow column
  | .table name found, column => P.inTable name found column

/-- The expression itself is one that planning builds from readings that the policy allows:
it reads an allowed column, or has operands. -/
def Allows : Expr → Prop
  | .column _ name => P.onRow name
  | .lookup table name filters => P.inTable table (filters.map Prod.fst) name
  | .keyJoin parts => parts ≠ [] ∨ P.emptyKeys
  | .listJoin parts => parts ≠ []
  | .firstOf parts => 2 ≤ parts.length
  | .locale => True
  | .encoded .. => True
  | .null => False
  | .text _ => False
  | .variable _ => False

/-- Every hop compares columns that may be read at the place before it. -/
def AllowsHops : Place → List Hop → Prop
  | _, [] => True
  | place, hop :: hops =>
      (∀ join ∈ hop.joins, P.At place join.source) ∧ AllowsHops (.behind hop) hops

/-- From the place the route takes allowed hops and reads allowed columns at its end; a
localized column may be read in the translations as well. -/
structure AllowsRoute (m : Model) (place : Place) (route : Route) : Prop where
  hops : P.AllowsHops place route.hops
  columns : ∀ column ∈ route.columns, P.At (place.along route.hops) column
  translations : route.isLocalized = true → ∀ texts,
    (m.get? route.holder).bind (·.texts) = some texts → ∀ column ∈ route.columns,
      P.inTable texts ((place.along route.hops).translationKey m route.holder ++ ["locale"]) column
  translationKey : route.isLocalized = true → place.along route.hops = .row →
    ∀ name ∈ Place.row.translationKey m route.holder, P.onRow name

/-- The routes of all paths that lead from the row at hand. -/
def AllowsPaths (m : Model) (entity : Entity) (paths : List String) : Prop :=
  ∀ path ∈ paths, ∀ route, m.route entity path = .ok route → P.AllowsRoute m .row route

/-- The routes of all identifier fields of a record at the place. -/
def AllowsFields (m : Model) (entity : Entity) (key : List String) (place : Place)
    (fields : List IdentityField) : Prop :=
  ∀ field ∈ fields, ∀ route, m.route entity field.path = .ok route →
    P.AllowsRoute m (fieldPlace place entity key field route) route

/-- A key may be made of the columns, and they may be read on the row at hand. -/
structure AllowsKey (key : List String) : Prop where
  ne_nil : key ≠ [] ∨ P.emptyKeys
  onRow : ∀ column ∈ key, P.onRow column

/-- The link of a child compares columns that may be read, and leads to an owner whose
identifier may be read. -/
structure AllowsOwner (m : Model) (child : String) (childKey : List String) (link : RootLink)
    (root : Entity) (fields : List IdentityField) : Prop where
  ne_nil : link.joins ≠ [] ∨ P.emptyKeys
  sources : ∀ join ∈ link.joins, P.At (linkPlace child childKey link) join.source
  fields : P.AllowsFields m root (link.joins.map (·.target))
    (.table root.name (link.joins.map (·.target))) fields

/-- Whatever is read from the origin's filters is allowed. -/
def AllowsOrigin : Origin → Prop
  | .row _ => True
  | .keyed _ filters => ∀ f ∈ filters, f.2.Everywhere P.Allows

variable {P}

/-! ## Origins -/

variable {origin : Origin}

theorem AllowsOrigin.read (h : P.AllowsOrigin origin) {column : String}
    (hcolumn : P.At origin.place column) : (origin.read column).Everywhere P.Allows := by
  cases origin with
  | row role => exact Expr.everywhere_column.mpr hcolumn
  | keyed entity filters => exact Expr.everywhere_lookup.mpr ⟨hcolumn, h⟩

/-- A row is read back by its key, which is read on the row. -/
theorem AllowsOrigin.readBack (h : P.AllowsOrigin origin) (entity : String) {key : List String}
    (hkey : origin.place = .row → ∀ column ∈ key, P.onRow column) :
    P.AllowsOrigin (origin.readBack entity key) := by
  cases origin with
  | row role =>
      intro f hf
      obtain ⟨column, hcolumn, rfl⟩ := List.mem_map.mp hf
      exact Expr.everywhere_column.mpr (hkey rfl column hcolumn)
  | keyed table filters => exact h

theorem AllowsOrigin.hop (h : P.AllowsOrigin origin) {hop : Hop}
    (hjoins : ∀ join ∈ hop.joins, P.At origin.place join.source) :
    P.AllowsOrigin (origin.hop hop) := by
  intro f hf
  obtain ⟨join, hjoin, rfl⟩ := List.mem_map.mp hf
  exact h.read (hjoins join hjoin)

theorem AllowsOrigin.along (h : P.AllowsOrigin origin) {hops : List Hop}
    (hhops : P.AllowsHops origin.place hops) : P.AllowsOrigin (origin.along hops) := by
  induction hops generalizing origin with
  | nil => exact h
  | cons hop hops ih =>
      refine ih (h.hop hhops.1) ?_
      rw [Origin.place_hop]
      exact hhops.2

theorem AllowsOrigin.fieldOrigin (h : P.AllowsOrigin origin) (m : Model) (entity : Entity)
    {key : List String} (hkey : origin.place = .row → ∀ column ∈ key, P.onRow column)
    (field : IdentityField) : P.AllowsOrigin (fieldOrigin m entity key origin field) := by
  unfold Plan.fieldOrigin
  split
  · split
    · exact h.readBack entity.name hkey
    · exact h
  · exact h

/-! ## Paths, identifiers and labels -/

variable {m : Model} {route : Route}

theorem allows_translation (h : P.AllowsOrigin origin) {holder texts column : String}
    (hcolumn : P.inTable texts (origin.place.translationKey m holder ++ ["locale"]) column)
    (hkey : origin.place = .row →
      ∀ name ∈ Place.row.translationKey m holder, P.onRow name) :
    (translation m holder texts column origin).Everywhere P.Allows := by
  have hlocale : ∀ f ∈ [("locale", Expr.locale)], f.2.Everywhere P.Allows := by
    intro f hf
    rw [List.mem_singleton.mp hf]
    exact Expr.everywhere_locale.mpr trivial
  cases origin with
  | keyed entity filters =>
      refine Expr.everywhere_lookup.mpr ⟨?_, List.forall_mem_append.mpr ⟨h, hlocale⟩⟩
      simpa [Allows, Origin.place, Place.translationKey] using hcolumn
  | row role =>
      rw [translation_row, Expr.everywhere_lookup]
      refine ⟨?_, List.forall_mem_append.mpr ⟨fun f hf => ?_, hlocale⟩⟩
      · simpa [Allows, Place.translationKey, Function.comp_def] using hcolumn
      · obtain ⟨name, hname, rfl⟩ := List.mem_map.mp hf
        exact Expr.everywhere_column.mpr (hkey rfl name hname)

theorem allows_routeValue (h : P.AllowsOrigin origin) {current : Entity} {path : String}
    (hroute : m.route current path = .ok route) (hallows : P.AllowsRoute m origin.place route) :
    (routeValue m route origin).Everywhere P.Allows := by
  have hlast := h.along hallows.hops
  have hplace := origin.place_along route.hops
  have hread : ∀ column ∈ route.columns,
      ((origin.along route.hops).read column).Everywhere P.Allows := by
    intro column hcolumn
    apply hlast.read
    rw [hplace]
    exact hallows.columns column hcolumn
  -- Only a single column is looked up in translations; several are joined as they are.
  by_cases hcolumns : ∃ column, route.columns = [column]
  · obtain ⟨column, hcolumn⟩ := hcolumns
    have hmem : column ∈ route.columns := by simp [hcolumn]
    rw [routeValue_of_column hcolumn]
    refine Expr.everywhere_encoded.mpr ⟨trivial, ?_⟩
    unfold terminal
    split
    · rename_i texts hlocalized htexts
      refine Expr.everywhere_firstOf.mpr ⟨by simp [Allows], ?_⟩
      intro e he
      rcases List.mem_cons.mp he with rfl | he
      · refine allows_translation hlast ?_ fun hrow => ?_
        · rw [hplace]
          exact hallows.translations hlocalized texts htexts column hmem
        · exact hallows.translationKey hlocalized (hplace ▸ hrow)
      · rw [List.mem_singleton.mp he]
        exact hread column hmem
    · exact hread column hmem
  · rw [routeValue_of_key (not_exists.mp hcolumns), Expr.everywhere_keyJoin]
    refine ⟨?_, fun e he => ?_⟩
    · have hnonempty := (Schema.Model.leads_of_route hroute).columns_ne_nil
      exact .inl fun hnil => hnonempty (List.map_eq_nil_iff.mp hnil)
    · obtain ⟨column, hcolumn, rfl⟩ := List.mem_map.mp he
      exact Expr.everywhere_encoded.mpr ⟨trivial, hread column hcolumn⟩

theorem allows_phrase {entity : Entity} {paths : List (String × Origin)}
    (h : ∀ p ∈ paths, ∀ route, m.route entity p.1 = .ok route →
      P.AllowsOrigin p.2 ∧ P.AllowsRoute m p.2.place route)
    {e : Expr} (he : phrase m entity paths = some e) : e.Everywhere P.Allows := by
  obtain ⟨values, hnonempty, rfl, hvalues⟩ := parts_of_phrase he
  refine Expr.everywhere_encoded.mpr ⟨trivial, Expr.everywhere_listJoin.mpr ⟨hnonempty, ?_⟩⟩
  intro value hvalue
  obtain ⟨p, hp, route, hroute, rfl⟩ := hvalues value hvalue
  obtain ⟨horigin, hallows⟩ := h p hp route hroute
  exact allows_routeValue horigin hroute hallows

theorem allows_identifier (h : P.AllowsOrigin origin) {entity : Entity}
    {fields : List IdentityField} {key : List String}
    (hkey : origin.place = .row → ∀ column ∈ key, P.onRow column)
    (hfields : P.AllowsFields m entity key origin.place fields) {e : Expr}
    (he : identifier m entity fields key origin = some e) : e.Everywhere P.Allows := by
  refine allows_phrase (fun p hp route hroute => ?_) he
  obtain ⟨field, hfield, rfl⟩ := List.mem_map.mp hp
  refine ⟨h.fieldOrigin m entity hkey field, ?_⟩
  rw [place_fieldOrigin hroute]
  exact hfields field hfield route hroute

theorem allows_label {entity : Entity} {labelPaths : List String}
    (hpaths : P.AllowsPaths m entity labelPaths) {e : Expr}
    (he : label m entity labelPaths (.row .subject) = some e) : e.Everywhere P.Allows := by
  refine allows_phrase (fun p hp route hroute => ?_) he
  obtain ⟨path, hpath, rfl⟩ := List.mem_map.mp hp
  exact ⟨trivial, hpaths path hpath route hroute⟩

/-! ## Keys and owners -/

theorem allows_joinedKey {parts : List Expr} (hnonempty : parts ≠ [] ∨ P.emptyKeys)
    (hparts : ∀ e ∈ parts, e.Everywhere P.Allows) : (joinedKey parts).Everywhere P.Allows := by
  unfold joinedKey
  split
  · exact hparts _ (List.mem_singleton_self _)
  · exact Expr.everywhere_keyJoin.mpr ⟨hnonempty, hparts⟩

theorem allows_rawText {e : Expr} (h : e.Everywhere P.Allows) :
    (rawText e).Everywhere P.Allows :=
  Expr.everywhere_encoded.mpr ⟨trivial, h⟩

theorem AllowsKey.encodeKey {key : List String} (h : P.AllowsKey key) :
    (encodeKey key .subject).Everywhere P.Allows := by
  refine allows_joinedKey (h.ne_nil.imp_left fun hne => mt List.map_eq_nil_iff.mp hne)
    fun e he => ?_
  obtain ⟨column, hcolumn, rfl⟩ := List.mem_map.mp he
  exact allows_rawText (Expr.everywhere_column.mpr (h.onRow column hcolumn))

theorem allows_linkOrigin (child : String) {childKey : List String}
    (hkey : ∀ column ∈ childKey, P.onRow column) (link : RootLink) :
    P.AllowsOrigin (linkOrigin child childKey link) := by
  have hrow : P.AllowsOrigin (.row .subject) := trivial
  cases link with
  | foreignKeys joins => exact hrow
  | backReference field joins => exact hrow.readBack child fun _ => hkey

theorem allows_owner {child rootName : String} {childKey : List String} {link : RootLink}
    {fields : List IdentityField} {o : Owner} (hkey : ∀ column ∈ childKey, P.onRow column)
    (howner : ∀ root, m.get? rootName = some root → P.AllowsOwner m child childKey link root fields)
    (h : owner m child childKey rootName link fields = .ok o) :
    o.key.Everywhere P.Allows ∧ ∀ e, o.identifier = some e → e.Everywhere P.Allows := by
  obtain ⟨root, hroot, hownerKey, hidentifier⟩ := parts_of_owner h
  have hallows := howner root (Schema.Model.entity_eq_ok_iff.mp hroot)
  have hread : ∀ join ∈ link.joins,
      ((linkOrigin child childKey link).read join.source).Everywhere P.Allows := by
    intro join hjoin
    apply (allows_linkOrigin child hkey link).read
    rw [place_linkOrigin]
    exact hallows.sources join hjoin
  refine ⟨?_, fun e he => ?_⟩
  · rw [hownerKey]
    refine allows_joinedKey (hallows.ne_nil.imp_left fun hne => mt List.map_eq_nil_iff.mp hne) ?_
    intro e he
    obtain ⟨join, hjoin, rfl⟩ := List.mem_map.mp he
    exact allows_rawText (hread join hjoin)
  · rw [hidentifier] at he
    refine allows_identifier ?_ (fun hrow => by cases hrow) ?_ he
    · intro f hf
      obtain ⟨join, hjoin, rfl⟩ := List.mem_map.mp hf
      exact hread join hjoin
    · rw [Origin.place, List.map_map]
      exact hallows.fields

/-! ## Planned sets -/

/-- What the policy has to allow for an entity's own set. -/
structure AllowsOwn (P : Policy) (m : Model) (d : Descriptor) (entity : Entity) : Prop where
  key : P.AllowsKey d.primaryKey
  identity : P.AllowsFields m entity d.primaryKey .row d.identity
  owner : ∀ binding, d.binding = some binding → ∀ root, m.get? binding.root = some root →
    P.AllowsOwner m d.entity d.primaryKey binding.link root binding.identity
  watched : ∀ a ∈ d.attributes, P.AllowsKey a.watched
  labels : ∀ a ∈ d.attributes, P.AllowsPaths m entity a.labelPaths

/-- What the policy has to allow for the set of a collection. -/
structure AllowsCollection (P : Policy) (m : Model) (d : Descriptor) (c : Collection)
    (target : Entity) : Prop where
  key : P.AllowsKey c.targetKeys
  identity : P.AllowsFields m target c.targetKeys .row c.identity
  owner : ∀ link, c.link = some link → ∀ root, m.get? d.entity = some root →
    P.AllowsOwner m target.name c.targetKeys link root d.identity

end Policy

namespace TriggerSet

/-- The expressions of a set: its key and identifier, those of its owner, and the value and
the label of each column. -/
def expressions (s : TriggerSet) : List Expr :=
  s.key :: s.identifier.toList
    ++ s.owner.toList.flatMap (fun o => o.key :: o.identifier.toList)
    ++ s.columns.flatMap fun c => c.value :: c.label.toList

theorem forall_mem_expressions {s : TriggerSet} {p : Expr → Prop} :
    (∀ e ∈ s.expressions, p e) ↔
      p s.key ∧ (∀ e, s.identifier = some e → p e) ∧
        (∀ o, s.owner = some o → p o.key ∧ ∀ e, o.identifier = some e → p e) ∧
        ∀ c ∈ s.columns, p c.value ∧ ∀ e, c.label = some e → p e := by
  simp only [expressions, List.forall_mem_append, List.forall_mem_cons, List.forall_mem_flatMap,
    Option.mem_toList, and_assoc]

/-- What an identity is made of is missing, or an expression of the set that is bound to the
row. -/
theorem forall_mem_identity {s : TriggerSet} {p : Expr → Prop} (row : RowRole) (hnull : p .null)
    (h : ∀ e ∈ s.expressions, p (e.bind row)) : ∀ v ∈ (s.identity row).values, p v.2 := by
  obtain ⟨hkey, hidentifier, howner, -⟩ := forall_mem_expressions.mp h
  have hbound (e : Option Expr) (h : ∀ e', e = some e' → p (e'.bind row)) : p (bound row e) := by
    cases e with
    | none => exact hnull
    | some e => exact h e rfl
  simp only [Identity.values, List.forall_mem_cons]
  refine ⟨hkey, hbound _ hidentifier, hbound _ fun e he => ?_, hbound _ fun e he => ?_,
    List.forall_mem_nil _⟩
  · obtain ⟨o, ho, rfl⟩ := Option.map_eq_some_iff.mp he
    exact (howner o ho).1
  · obtain ⟨o, ho, he⟩ := Option.bind_eq_some_iff.mp he
    exact (howner o ho).2 e he

end TriggerSet

namespace Policy

variable {P : Policy} {m : Model} {d : Descriptor} {settings : Settings} {set : TriggerSet}

theorem allows_attributeValue {a : Attribute} (h : P.AllowsKey a.watched) :
    (attributeValue a).Everywhere P.Allows := by
  unfold attributeValue
  split
  · exact h.encodeKey
  · rename_i hplain
    refine Expr.everywhere_encoded.mpr ⟨trivial, Expr.everywhere_column.mpr (h.onRow a.name ?_)⟩
    have hnone : a.relation = .none := by simpa [Attribute.isRelationship] using hplain
    rw [Attribute.watched, hnone]
    exact List.mem_singleton_self _

/-- The policy allows everything that the set reads: in its expressions, and where it compares
the columns of two rows. -/
structure AllowsSet (P : Policy) (s : TriggerSet) : Prop where
  expressions : ∀ e ∈ s.expressions, e.Everywhere P.Allows
  watched : ∀ c ∈ s.columns, ∀ column ∈ c.watched, P.onRow column

/-- Where the policy allows what an entity is planned from, it allows what its own set reads. -/
theorem AllowsOwn.allowsSet (h : ∀ entity, m.get? d.entity = some entity → P.AllowsOwn m d entity)
    (hplan : planEntity m d settings = .ok (some set)) : P.AllowsSet set := by
  have hrow : P.AllowsOrigin (.row .subject) := trivial
  obtain ⟨entity, hentity, hkey, hidentifier, howner⟩ := identity_of_planEntity hplan
  obtain ⟨entity', hentity', hcolumns⟩ := columns_of_planEntity hplan
  rw [hentity] at hentity'
  cases hentity'
  have hallows := h entity (Schema.Model.entity_eq_ok_iff.mp hentity)
  constructor
  · rw [TriggerSet.forall_mem_expressions, hkey, hidentifier, hcolumns]
    refine ⟨hallows.key.encodeKey, fun e he => ?_, fun o ho => ?_, fun c hc => ?_⟩
    · exact allows_identifier hrow (fun _ => hallows.key.onRow) hallows.identity he
    · rw [ho] at howner
      obtain ⟨binding, hbinding, ho⟩ := exists_of_mapM_eq_some howner
      exact allows_owner hallows.key.onRow (hallows.owner binding hbinding) ho
    · obtain ⟨a, ha, rfl⟩ := List.mem_map.mp hc
      exact ⟨allows_attributeValue (hallows.watched a ha),
        fun e he => allows_label (hallows.labels a ha) he⟩
  · rw [hcolumns]
    intro c hc
    obtain ⟨a, ha, rfl⟩ := List.mem_map.mp hc
    exact (hallows.watched a ha).onRow

/-- Where the policy allows what a collection is planned from, it allows what its set reads. -/
theorem AllowsCollection.allowsSet {c : Collection}
    (h : ∀ target, m.get? c.target = some target → P.AllowsCollection m d c target)
    (hplan : planCollection m d settings c = .ok set) : P.AllowsSet set := by
  have hrow : P.AllowsOrigin (.row .subject) := trivial
  obtain ⟨target, htarget, hkey, hidentifier, howner⟩ := identity_of_planCollection hplan
  obtain ⟨target', column, htarget', hcolumns, hwatched, hlabel, hvalue⟩ :=
    columns_of_planCollection hplan
  rw [htarget] at htarget'
  cases htarget'
  have hallows := h target (Schema.Model.entity_eq_ok_iff.mp htarget)
  have hchild : ∀ e, identifier m target c.identity c.targetKeys (.row .subject) = some e →
      e.Everywhere P.Allows := fun e he =>
    allows_identifier hrow (fun _ => hallows.key.onRow) hallows.identity he
  constructor
  · rw [TriggerSet.forall_mem_expressions, hkey, hidentifier, hcolumns]
    refine ⟨hallows.key.encodeKey, hchild, fun o ho => ?_, List.forall_mem_singleton.mpr ⟨?_, ?_⟩⟩
    · rw [ho] at howner
      obtain ⟨link, hlink, ho⟩ := exists_of_mapM_eq_some howner
      exact allows_owner hallows.key.onRow (hallows.owner link hlink) ho
    · rw [hvalue]
      cases hid : identifier m target c.identity c.targetKeys (.row .subject) with
      | none => exact hallows.key.encodeKey
      | some e => exact hchild e hid
    · rw [hlabel]
      rintro e ⟨⟩
  · rw [hcolumns, List.forall_mem_singleton, hwatched]
    exact List.forall_mem_nil _

end Policy

end ChangeTracking.Plan
