import ChangeTracking.Proofs.Firing.Translations
import ChangeTracking.Proofs.Plan.Phrases
import ChangeTracking.Proofs.Plan.Subterms

/-!
# Computed fields of an identifier

The writer does not supply a computed value, so an identifier does not take it from the written
row.  Where a path stays on the record and ends on a computed element, its part of the
identifier is read from the table, by the primary key: it reads nothing but the key of the row,
and has the value that the first stored row with this key holds, or that this key has among the
texts.  So two rows with one key are identified by the same value, whatever else they hold.

A path that ends on an association is not among these.  It ends on the foreign keys, which are
taken for written whether the association, or its foreign key, is computed or not.
-/

namespace ChangeTracking.Schema

/-! ## Routes to computed elements -/

variable {m : Model} {current : Entity} {route : Route}

/-- The route ends on the column of a computed element of the entity at hand. -/
def Route.EndsComputed (route : Route) (current : Entity) : Prop :=
  ∃ element ∈ current.elements, element.isComputed = true ∧
    route = .toElement current element [element.name]

/-- Foreign keys do not count as computed. -/
theorem Route.EndsAt.endsComputed (h : route.EndsAt current) (hcomputed : route.isComputed = true) :
    route.EndsComputed current := by
  cases h with
  | element helement =>
      obtain ⟨hmem, rfl⟩ := element_of_element? helement
      exact ⟨_, hmem, hcomputed, rfl⟩
  | foreignKeys => cases hcomputed
  | key => cases hcomputed

/-- A route that stays on the record and ends on a computed value ends on the column of a
computed element. -/
theorem Model.endsComputed_of_route {path : String} (h : m.route current path = .ok route)
    (hlocal : route.isLocal = true) (hcomputed : route.isComputed = true) :
    route.EndsComputed current :=
  ((leads_of_route h).endsAt (List.isEmpty_iff.mp hlocal)).endsComputed hcomputed

end ChangeTracking.Schema

namespace ChangeTracking.Firing

open Plan (Expr Origin RowRole fieldOrigin identifier pathValue phraseOf routeValue terminal)
open Schema (Element Entity Model Route)
open Tracking (Analysis IdentityField analyze identityFields)

/-! ## The stored value of a key -/

/-- What is stored of the element under the key of the row: the text in the locale of the session,
where the element has texts, and else what the first row of the entity with this key holds. -/
def Store.storedValue (store : Store) (e : Entity) (element : Element) (key : List String)
    (row : Row) : Option String :=
  let translated :=
    if element.isLocalized then
      e.texts.bind fun texts => store.textOf texts element.name row key
    else none
  translated.or
    (((store.rowsOf e.name).find? (·.follows row (selfJoins key))).bind (·.get? element.name))

/-- Rows with one key have the same rows follow them by this key. -/
theorem follows_selfJoins_congr {key : List String} {row other : Row}
    (h : ∀ column ∈ key, row.get? column = other.get? column) (next : Row) :
    next.follows row (selfJoins key) = next.follows other (selfJoins key) := by
  rw [Bool.eq_iff_iff, follows_selfJoins_iff, follows_selfJoins_iff]
  exact forall₂_congr fun column hcolumn => by rw [h column hcolumn]

theorem storedValue_congr {key : List String} {row other : Row}
    (h : ∀ column ∈ key, row.get? column = other.get? column) (store : Store) (e : Entity)
    (element : Element) :
    store.storedValue e element key row = store.storedValue e element key other := by
  simp only [Store.storedValue, Store.textOf, Row.isTextOf, follows_selfJoins_congr h]

/-! ## Reading back -/

/-- The expression reads none but the given columns of the row, and no local. -/
def ReadsColumns (role : RowRole) (columns : List String) : Expr → Prop
  | .column r column => r = role ∧ column ∈ columns
  | .variable _ => False
  | _ => True

/-- To read a row back is to take a hop to its own entity, by its key. -/
theorem readBack_row (role : RowRole) (entity : String) (key : List String) :
    (Origin.row role).readBack entity key = (Origin.row role).hop ⟨entity, selfJoins key⟩ := by
  rw [Origin.readBack, Origin.hop, selfJoins, List.map_map]
  rfl

section ReadBack

variable {m : Model} {e : Entity} {element : Element} {key : List String} {role : RowRole}

/-- The value of a computed element, read back by the key of the row. -/
abbrev readBackValue (m : Model) (e : Entity) (element : Element) (key : List String)
    (role : RowRole) : Expr :=
  routeValue m (.toElement e element [element.name]) ((Origin.row role).readBack e.name key)

/-- By the key of the row, and nothing else of it, the texts and the table are read. -/
theorem everywhere_readBackValue (hget : m.get? e.name = some e) :
    (readBackValue m e element key role).Everywhere (ReadsColumns role key) := by
  have hkey : ∀ f ∈ key.map fun column => (column, Expr.column role column),
      f.2.Everywhere (ReadsColumns role key) := by
    rw [List.forall_mem_map]
    exact fun column hcolumn => Expr.everywhere_column.mpr ⟨rfl, hcolumn⟩
  have hread : (((Origin.row role).readBack e.name key).read element.name).Everywhere
      (ReadsColumns role key) := Expr.everywhere_lookup.mpr ⟨trivial, hkey⟩
  have htranslation (texts : String) : (Plan.translation m e.name texts element.name
      ((Origin.row role).readBack e.name key)).Everywhere (ReadsColumns role key) := by
    refine Expr.everywhere_lookup.mpr ⟨trivial, List.forall_mem_append.mpr ⟨hkey, ?_⟩⟩
    exact List.forall_mem_singleton.mpr (Expr.everywhere_locale.mpr trivial)
  refine Expr.everywhere_encoded.mpr ⟨trivial, ?_⟩
  unfold terminal
  dsimp only [Route.toElement, Route.holder]
  rw [hget, Option.bind_some]
  split
  · refine Expr.everywhere_firstOf.mpr ⟨trivial, ?_⟩
    exact List.forall_mem_cons.mpr ⟨htranslation _, List.forall_mem_singleton.mpr hread⟩
  · exact hread

/-- What is read back by a key is what is stored under it. -/
theorem value_readBackValue (hget : m.get? e.name = some e) {s : Scene} {row : Row}
    (hrow : s.row role = some row) :
    s.value (readBackValue m e element key role) =
      (s.store.storedValue e element key row).map (recordedText (.ofDeclared element.type)) := by
  have hstart : s.Reaches (.row role) (some row) := Scene.reaches_of_row hrow
  have hread : s.value (((Origin.row role).hop ⟨e.name, selfJoins key⟩).read element.name) =
      ((s.store.rowsOf e.name).find? (·.follows row (selfJoins key))).bind
        (·.get? element.name) := by
    rw [Origin.hop, Origin.read, Scene.value, ← Scene.find?_joins_of_record hstart,
      Option.bind_assoc]
  have htranslation (texts : String) :
      s.value (Plan.translation m e.name texts element.name
        ((Origin.row role).hop ⟨e.name, selfJoins key⟩)) =
          s.store.textOf texts element.name row key :=
    Scene.value_textLookup hstart (selfJoins key) texts element.name
  rw [readBackValue, readBack_row, Plan.routeValue_of_column rfl, Plan.encode, Scene.value,
    apply_of_valueClass]
  refine congrArg (Option.map _) ?_
  unfold terminal
  dsimp only [Route.toElement, Origin.along, List.foldl_nil]
  rw [hget, Option.bind_some, Store.storedValue]
  cases element.isLocalized with
  | false => exact hread
  | true =>
      cases e.texts with
      | none => exact hread
      | some texts =>
          simp only [Scene.value, Scene.firstValue, Option.or_none]
          rw [htranslation, hread]
          rfl

end ReadBack

/-! ## Parts of an identifier -/

/-- The part of an identifier is read back by the key of the row: it reads nothing else of it, its
value is what is stored of the element under this key, and rows that agree on the key have the
same. -/
structure IsReadBack (e : Entity) (key : List String) (role : RowRole) (element : Element)
    (part : Expr) : Prop where
  computed : element ∈ e.elements ∧ element.isComputed = true
  reads : part.Everywhere (ReadsColumns role key)
  value : ∀ (s : Scene) (row : Row), s.row role = some row →
    s.value part =
      (s.store.storedValue e element key row).map (recordedText (.ofDeclared element.type))
  agrees : ∀ (s t : Scene) (row other : Row), s.store = t.store →
    s.row role = some row → t.row role = some other →
      (∀ column ∈ key, row.get? column = other.get? column) → s.value part = t.value part

section Fields

variable {m : Model} {e : Entity} {paths : List String} {field : IdentityField}

/-- A field of an identifier knows whether the written row has its value. -/
theorem route_of_mem_identityFields (h : field ∈ identityFields m e paths) :
    ∃ route, m.route e field.path = .ok route ∧ field.onRow = route.isOnRow := by
  obtain ⟨path, -, hfield⟩ := List.mem_filterMap.mp h
  split at hfield
  · rename_i route hroute
    cases hfield
    exact ⟨route, hroute, rfl⟩
  · cases hfield

theorem resolves_of_mem_identityFields (h : field ∈ identityFields m e paths) :
    Tracking.resolves m e field.path = true := by
  obtain ⟨route, hroute, -⟩ := route_of_mem_identityFields h
  rw [Tracking.resolves, hroute]
  rfl

/-- A computed field is read back by the key. -/
theorem fieldOrigin_of_computed {route : Route} (h : field ∈ identityFields m e paths)
    (hroute : m.route e field.path = .ok route) (hlocal : route.isLocal = true)
    (hcomputed : route.isComputed = true) (key : List String) (origin : Origin) :
    fieldOrigin m e key origin field = origin.readBack e.name key := by
  obtain ⟨route', hroute', honRow⟩ := route_of_mem_identityFields h
  cases hroute.symm.trans hroute'
  have hback : (!field.onRow && route.isLocal) = true := by
    rw [honRow, Route.isOnRow, hlocal, hcomputed]
    rfl
  simp only [fieldOrigin, hroute, hback, if_true]

theorem isReadBack_of_field (hget : m.get? e.name = some e) {key : List String} {role : RowRole}
    (h : field ∈ identityFields m e paths) {route : Route}
    (hroute : m.route e field.path = .ok route) (hlocal : route.isLocal = true)
    (hcomputed : route.isComputed = true) {part : Expr}
    (hpart : pathValue m e field.path (fieldOrigin m e key (.row role) field) = .ok part) :
    ∃ element, route.columns = [element.name] ∧ IsReadBack e key role element part := by
  obtain ⟨element, hmem, helement, rfl⟩ := Model.endsComputed_of_route hroute hlocal hcomputed
  rw [fieldOrigin_of_computed h hroute hlocal hcomputed, pathValue, hroute] at hpart
  have hvalue {s : Scene} {row : Row} (hrow : s.row role = some row) :
      s.value (readBackValue m e element key role) =
        (s.store.storedValue e element key row).map (recordedText (.ofDeclared element.type)) :=
    value_readBackValue hget hrow
  cases hpart
  refine ⟨element, rfl, ⟨hmem, helement⟩, everywhere_readBackValue hget, fun s row => hvalue, ?_⟩
  intro s t row other hstore hrow hother hagree
  rw [hvalue hrow, hvalue hother, hstore, storedValue_congr hagree]

end Fields

/-- The identifier of an analyzed entity has one part for each of its fields.  Where the path of a
field stays on the record and ends on a computed value, this is the value of a computed element,
and the part is read back by the primary key: it reads nothing but the key columns of the row, it
has the value that is stored under this key, among the texts of a localized element or else in
the first row of the entity, and it is the same for all rows with the key. -/
theorem computedFields_readBack {m : Model} {settings : Settings} {name : String} {a : Analysis}
    (h : analyze m name settings = .ok a) (role : RowRole) :
    ∃ e parts, m.get? a.descriptor.entity = some e ∧
      identifier m e a.descriptor.identity a.descriptor.primaryKey (.row role) = phraseOf parts ∧
      List.Forall₂
        (fun field part => ∀ route, m.route e field.path = .ok route → route.isLocal = true →
          route.isComputed = true → ∃ element, route.columns = [element.name] ∧
            IsReadBack e a.descriptor.primaryKey role element part)
        a.descriptor.identity parts := by
  obtain ⟨e, merged, hdb, -, -, -, hidentity⟩ := Plan.database_of_analyze h
  have hget : m.get? e.name = some e := by rw [Model.name_of_get? hdb, hdb]
  have hfield : ∀ field ∈ a.descriptor.identity,
      field ∈ identityFields m e (Tracking.annotatedPaths merged.entity) := by
    rw [hidentity]
    exact fun field hfield => hfield
  refine ⟨e, _, hdb, Plan.phrase_eq_phraseOf m e _, ?_⟩
  refine List.Forall₂.imp ?_ ((List.forall₂_and_left _ _).mpr ⟨hfield,
    Plan.forall₂_fragments fun field h => resolves_of_mem_identityFields (hfield field h)⟩)
  exact fun field part hpart route hroute hlocal hcomputed =>
    isReadBack_of_field hget hpart.1 hroute hlocal hcomputed hpart.2

/-! ### Invoices -/

namespace Invoices

/-- Invoices are identified by the paths.  Their total and their title are computed, and so is the
customer, together with the column that refers to it. -/
def invoices (paths : List String) : Entity where
  name := "shop.Invoices"
  directive := some (.paths paths)
  texts := some "shop.Invoices.texts"
  elements := [
    { name := "ID", isKey := true },
    { name := "total", type := "cds.Decimal", isComputed := true },
    { name := "title", isComputed := true, isLocalized := true },
    { name := "customer", type := "cds.Association", isComputed := true
      association := some { kind := .reference, target := "shop.Customers", keys := ["ID"] } },
    { name := "customer_ID", isComputed := true, foreignKeyOf := some "customer" }]

/-- The invoices with their customers. -/
def entities (paths : List String) : NameMap Entity :=
  NameMap.ofList [
    ("shop.Customers", {
      name := "shop.Customers"
      elements := [{ name := "ID", isKey := true }] }),
    ("shop.Invoices", invoices paths)]

/-- Every path ends on a computed element, the last of them on a key that the column holds. -/
def model : Model := ⟨entities ["total", "title", "customer.ID"], by decide⟩

/-- One path ends on the key that the column of the association holds, the other on the association
itself. -/
def customerModel : Model := ⟨entities ["customer.ID", "customer"], by decide⟩

/-- The invoice as it is stored, with a German text. -/
def store : Store where
  rows := [
    ("shop.Invoices",
      ⟨[("ID", "1"), ("total", "12"), ("title", "Invoice"), ("customer_ID", "c1")]⟩),
    ("shop.Invoices.texts", ⟨[("ID", "1"), ("locale", "de"), ("title", "Rechnung")]⟩)]
  locale := some "de"

/-- The invoice as somebody writes it, with a total, a title and a customer of their own. -/
def written (customer : String) : Row :=
  ⟨[("ID", "1"), ("total", "0"), ("title", "Gift"), ("customer_ID", customer)]⟩

/-- The identifier of a written invoice, in a model. -/
def identifierIn (m : Model) (row : Row) : Option String :=
  (analyze m "shop.Invoices" {}).toOption.bind fun a =>
    (m.get? a.descriptor.entity).bind fun e =>
      (identifier m e a.descriptor.identity a.descriptor.primaryKey (.row .new)).bind
        (store.sceneOfNew row).value

/-- An invoice is identified by what is stored of it, whatever is written. -/
theorem readBack_invoice : ∃ a e parts, analyze model "shop.Invoices" {} = .ok a ∧
    model.get? a.descriptor.entity = some e ∧
    a.descriptor.identity.map (·.path) = ["total", "title", "customer.ID"] ∧
    identifierIn model (written "c9") = some "12, Rechnung, c1" ∧
    identifier model e a.descriptor.identity a.descriptor.primaryKey (.row .new) =
      phraseOf parts ∧
    List.Forall₂
      (fun field part => ∀ route, model.route e field.path = .ok route → route.isLocal = true →
        route.isComputed = true → ∃ element, route.columns = [element.name] ∧
          IsReadBack e a.descriptor.primaryKey .new element part)
      a.descriptor.identity parts := by
  have hpaths : (analyze model "shop.Invoices" {}).map (fun a => a.descriptor.identity.map (·.path)) =
      .ok ["total", "title", "customer.ID"] := by
    decide +kernel
  obtain ⟨a, ha, hpaths⟩ := map_eq_ok.mp hpaths
  obtain ⟨e, parts, he, hidentifier, hparts⟩ := computedFields_readBack ha .new
  exact ⟨a, e, parts, ha, he, hpaths, by decide +kernel, hidentifier, hparts⟩

/-- A path that ends on a computed association is taken from the written row, although it stays on
the record, and ends on a column whose element is computed as well.  Two writes with one key are
identified by the customers that they bring, next to the stored one, which the path to the key of the
customer reads from the same column. -/
theorem customer_of_writtenInvoice :
    customerModel.get? "shop.Invoices" = some (invoices ["customer.ID", "customer"]) ∧
      Tracking.primaryKey (invoices ["customer.ID", "customer"]) = ["ID"] ∧
      (∀ name ∈ ["customer", "customer_ID"],
        ((invoices ["customer.ID", "customer"]).element? name).map (·.isComputed) = some true) ∧
      (∀ path ∈ ["customer.ID", "customer"],
        (customerModel.route (invoices ["customer.ID", "customer"]) path).map
          (fun route => (route.isLocal, route.columns)) = .ok (true, ["customer_ID"])) ∧
      (written "c8").get? "ID" = (written "c9").get? "ID" ∧
      identifierIn customerModel (written "c8") = some "c1, c8" ∧
      identifierIn customerModel (written "c9") = some "c1, c9" := by
  decide +kernel

end Invoices

end ChangeTracking.Firing
