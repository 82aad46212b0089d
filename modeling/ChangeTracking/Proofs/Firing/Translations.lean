import ChangeTracking.Proofs.Firing.Navigation
import ChangeTracking.Proofs.Firing.RootIdentifiers

/-!
# Translations

A localized value is looked for among the texts of its entity, by the columns at hand: by
the key elements for the written row, and by the columns of the last hop for a record that
was looked up.  The main statement is that the text found is the translation of the record
wherever these columns are the primary key of its entity.  Key elements that are
associations have columns of other names, and a hop may compare other columns or only some
of the key; then a translation is missed, or that of another record is taken for it.
-/

namespace ChangeTracking.Firing

open Plan (Expr Origin RowRole pathValue routeValue terminal)
open Schema (ColumnPair Entity Hop Model Route)
open Tracking (primaryKey)

/-! ## Texts of a record -/

/-- The row of texts agrees with the record on the compared columns, and is in the locale. -/
def Row.isTextOf (text record : Row) (compared : List String) (locale : String) : Bool :=
  text.follows record (selfJoins compared) && text.get? "locale" == some locale

/-- The row of texts belongs to the record with this key, in the locale of the session. -/
def Row.Translates (text record : Row) (key : List String) (store : Store) : Prop :=
  ∃ locale, store.locale = some locale ∧ text.isTextOf record key locale = true

/-- The columns by which texts of the record at the end of a route are looked for. -/
def textsColumns (holder : Entity) (route : Route) : List String :=
  match route.hops.getLast? with
  | none => holder.keyElements.map (·.name)
  | some hop => hop.joins.map (·.target)

/-- The text of a column in the first row of texts that agrees with the record on the compared
columns, in the locale of the session. -/
def Store.textOf (store : Store) (texts column : String) (record : Row)
    (compared : List String) : Option String :=
  store.locale.bind fun locale =>
    ((store.rowsOf texts).find? (·.isTextOf record compared locale)).bind (·.get? column)

theorem follows_selfJoins_iff {text record : Row} {columns : List String} :
    text.follows record (selfJoins columns) = true ↔
      ∀ column ∈ columns, (record.get? column).isSome ∧ text.get? column = record.get? column := by
  simp [Row.follows, selfJoins]

/-- What follows the record before a hop agrees with the record behind it. -/
theorem follows_iff_of_follows {text next previous : Row} {joins : List ColumnPair}
    (h : next.follows previous joins = true) :
    text.follows previous joins = text.follows next (selfJoins (joins.map (·.target))) := by
  have hheld : ∀ join ∈ joins, (previous.get? join.source).isSome = true ∧
      next.get? join.target = previous.get? join.source := by
    simpa [Row.follows] using h
  rw [Bool.eq_iff_iff, follows_selfJoins_iff, List.forall_mem_map, Row.follows, List.all_eq_true]
  refine forall₂_congr fun join hjoin => ?_
  obtain ⟨hsource, htarget⟩ := hheld join hjoin
  rw [htarget]
  simp

/-! ## Where a translation is looked for -/

namespace Scene

variable {s : Scene} {origin : Origin} {previous : Row}

theorem reaches_of_row {role : RowRole} {row : Row} (hrow : s.row role = some row) :
    s.Reaches (.row role) (some row) :=
  hrow ▸ s.reaches_row role

/-- A look-up by columns of a record and the locale finds the first such row of texts. -/
theorem value_textLookup (h : s.Reaches origin (some previous)) (joins : List ColumnPair)
    (texts column : String) :
    s.value (.lookup texts column
        ((joins.map fun join => (join.target, origin.read join.source)) ++ [("locale", .locale)])) =
      s.store.locale.bind fun locale =>
        ((s.store.rowsOf texts).find? fun text =>
          text.follows previous joins && text.get? "locale" == some locale).bind (·.get? column) := by
  have hfollows := filterValues_joins h joins
  rw [value_translationLookup]
  cases hvalues : s.filterValues (joins.map fun join => (join.target, origin.read join.source)) with
  | none =>
      -- Where a compared value is missing, no text follows the record.
      rw [hvalues] at hfollows
      have hnone (locale : String) : ((s.store.rowsOf texts).find? fun text =>
          text.follows previous joins && text.get? "locale" == some locale) = none := by
        simp [← hfollows]
      simp only [Option.bind_none, hnone, Option.bind_fun_none]
  | some values =>
      rw [hvalues] at hfollows
      have hhas (locale : String) : (fun text : Row => text.has (values ++ [("locale", locale)])) =
          fun text => text.follows previous joins && text.get? "locale" == some locale := by
        funext text
        rw [← hfollows text]
        simp [Row.has]
      simp only [Option.bind_some, Store.translationOf, Store.find?, hhas]

end Scene

variable {m : Model} {s : Scene} {start holder : Entity} {route : Route} {path : String}
  {role : RowRole} {row record : Row}

/-- The texts of the written row are looked for by its key elements. -/
theorem value_translation_row (hholder : m.get? route.holder = some holder)
    (hrow : s.row role = some row) (texts column : String) :
    s.value (Plan.translation m route.holder texts column (.row role)) =
      s.store.textOf texts column row (holder.keyElements.map (·.name)) := by
  have hnames : Plan.keyNames m route.holder = some (holder.keyElements.map (·.name)) := by
    rw [Plan.keyNames, hholder, Option.map_some]
  have hfilters : (holder.keyElements.map (·.name)).map (fun name => (name, Expr.column role name)) =
      (selfJoins (holder.keyElements.map (·.name))).map fun join =>
        (join.target, (Origin.row role).read join.source) := by
    rw [selfJoins, List.map_map (l := holder.keyElements.map (·.name))]
    rfl
  rw [Plan.translation_row, hnames, Option.getD_some, hfilters,
    Scene.value_textLookup (Scene.reaches_of_row hrow)]
  rfl

/-- The texts of a record behind a hop are looked for by the columns that the hop compares. -/
theorem value_translation_hop {origin : Origin} {previous : Row}
    (h : s.Reaches origin (some previous)) {hop : Hop}
    (hnext : s.store.nextRecord (some previous) hop = some record) (texts column : String) :
    s.value (Plan.translation m route.holder texts column (origin.hop hop)) =
      s.store.textOf texts column record (hop.joins.map (·.target)) := by
  have hfollows : record.follows previous hop.joins = true := by
    rw [Store.nextRecord, Option.bind_some] at hnext
    simpa only using List.find?_some hnext
  have htranslation : Plan.translation m route.holder texts column (origin.hop hop) =
      .lookup texts column ((hop.joins.map fun join => (join.target, origin.read join.source)) ++
        [("locale", .locale)]) := rfl
  rw [htranslation, Scene.value_textLookup h, Store.textOf]
  simp only [follows_iff_of_follows hfollows, Row.isTextOf]

/-- The texts of the record at the end of a route are looked for by the key elements where the
record is the written row, and else by the columns of the last hop. -/
theorem value_translation_along (hroute : m.route start path = .ok route)
    (hholder : m.get? route.holder = some holder) (hrow : s.row role = some row)
    (hlast : s.store.lastRecord row route.hops = some record) (texts column : String) :
    s.value (Plan.translation m route.holder texts column
        ((Origin.row role).along route.hops)) =
      s.store.textOf texts column record (textsColumns holder route) := by
  have hjoins := (Model.leads_of_route hroute).joins_ne_nil
  rcases List.eq_nil_or_concat' route.hops with hhops | ⟨before, last, hhops⟩
  · rw [hhops] at hlast
    cases hlast
    rw [textsColumns, hhops]
    exact value_translation_row hholder hrow texts column
  · rw [hhops] at hjoins hlast
    rw [Store.lastRecord, List.foldl_append] at hlast
    have hbefore := (Scene.reaches_of_row hrow).along before fun hop hhop => hjoins hop (List.mem_append_left _ hhop)
    have hprevious : ∃ previous, before.foldl s.store.nextRecord (some row) = some previous :=
      Option.isSome_iff_exists.mp (Option.isSome_of_isSome_bind (Option.isSome_of_mem hlast))
    obtain ⟨previous, hprevious⟩ := hprevious
    rw [hprevious] at hbefore hlast
    rw [textsColumns, hhops, List.getLast?_concat, Origin.along, List.foldl_append]
    exact value_translation_hop hbefore hlast texts column

/-! ## The text that is found -/

/-- At most one row of texts belongs to the record, in the locale of the session. -/
def Store.TranslatesOnce (store : Store) (texts : String) (record : Row) (key : List String) :
    Prop :=
  ∀ text ∈ store.rowsOf texts, ∀ other ∈ store.rowsOf texts,
    text.Translates record key store → other.Translates record key store → other = text

section Texts

variable {store : Store} {texts : String} {key : List String}

theorem translatesOnce_of_singleton {only : Row} (h : store.rowsOf texts = [only]) :
    store.TranslatesOnce texts record key := by
  rw [Store.TranslatesOnce, h]
  intro text htext other hother _ _
  rw [List.mem_singleton.mp htext, List.mem_singleton.mp hother]

/-- Texts that are looked for by the same columns in another order are the same. -/
theorem textOf_congr {compared : List String} (h : ∀ column, column ∈ compared ↔ column ∈ key)
    (store : Store) (texts column : String) (record : Row) :
    store.textOf texts column record compared = store.textOf texts column record key := by
  have hagrees (text : Row) (locale : String) :
      text.isTextOf record compared locale = text.isTextOf record key locale := by
    have hfollows : text.follows record (selfJoins compared) =
        text.follows record (selfJoins key) := by
      rw [Bool.eq_iff_iff]
      simp only [follows_selfJoins_iff, h]
    rw [Row.isTextOf, Row.isTextOf, hfollows]
  simp only [Store.textOf, hagrees]

/-- The only text of a record is found. -/
theorem textOf_of_translates (honce : store.TranslatesOnce texts record key) {text : Row}
    (hstored : text ∈ store.rowsOf texts) (htranslates : text.Translates record key store)
    (column : String) : store.textOf texts column record key = text.get? column := by
  obtain ⟨locale, hlocale, hagrees⟩ := id htranslates
  rw [Store.textOf, hlocale, Option.bind_some]
  cases hfound : (store.rowsOf texts).find? (·.isTextOf record key locale) with
  | none => exact absurd hagrees (List.find?_eq_none.mp hfound text hstored)
  | some other =>
      have hother : other.isTextOf record key locale = true := by
        simpa only using List.find?_some hfound
      have hsame := honce text hstored other (List.mem_of_find?_eq_some hfound) htranslates
        ⟨locale, hlocale, hother⟩
      rw [hsame, Option.bind_some]

theorem textOf_eq_none (column : String)
    (hmissing : ∀ text ∈ store.rowsOf texts,
      text.Translates record key store → text.get? column = none) :
    store.textOf texts column record key = none := by
  rw [Store.textOf, Option.bind_eq_none_iff]
  intro locale hlocale
  rw [Option.bind_eq_none_iff]
  intro text hfound
  have hagrees : text.isTextOf record key locale = true := by
    simpa only using List.find?_some hfound
  exact hmissing text (List.mem_of_find?_eq_some hfound) ⟨locale, hlocale, hagrees⟩

end Texts

/-! ## Localized values -/

/-- The value is the translation of the record where there is one, and else the record's own. -/
structure IsLocalizedText (store : Store) (texts : String) (holder : Entity) (type column : String)
    (record : Row) (value : Option String) : Prop where
  translated : ∀ text ∈ store.rowsOf texts, text.Translates record (primaryKey holder) store →
      ∀ translation, text.get? column = some translation →
        value = some (recordedText (.ofDeclared type) translation)
  own : (∀ text ∈ store.rowsOf texts,
      text.Translates record (primaryKey holder) store → text.get? column = none) →
    value = (record.get? column).map (recordedText (.ofDeclared type))

/-- A localized value is the first text that is found by the columns at hand, and without one
what the record itself holds. -/
theorem value_localizedRoute (hroute : m.route start path = .ok route)
    (hlocalized : route.isLocalized = true) (hholder : m.get? route.holder = some holder)
    {texts : String} (htexts : holder.texts = some texts) {column : String}
    (hcolumn : route.columns = [column]) (hrow : s.row role = some row)
    (hlast : s.store.lastRecord row route.hops = some record) :
    s.value (routeValue m route (.row role)) =
      ((s.store.textOf texts column record (textsColumns holder route)).or
        (record.get? column)).map (recordedText (.ofDeclared route.type)) := by
  have hjoins := (Model.leads_of_route hroute).joins_ne_nil
  have hread := (Scene.reaches_of_row hrow).along route.hops hjoins column
  have hend : route.hops.foldl s.store.nextRecord (some row) = some record := hlast
  have hterminal : terminal m route ((Origin.row role).along route.hops) column =
      .firstOf [Plan.translation m route.holder texts column ((Origin.row role).along route.hops),
        ((Origin.row role).along route.hops).read column] := by
    rw [terminal, hlocalized, hholder, Option.bind_some, htexts]
  rw [Plan.routeValue_of_column hcolumn, Plan.encode, Scene.value, apply_of_valueClass, hterminal,
    Scene.value, Scene.firstValue, Scene.firstValue, Scene.firstValue, Option.or_none,
    value_translation_along hroute hholder hrow hlast, hread, hend, Option.bind_some]

/-- Where a path ends on a localized column of a record whose entity has texts, at most one of
which belongs to the record and the locale of the session, and these texts are looked for by the
primary key of the entity, the path is planned, and its value is the recorded form of this text,
or else of what the record itself holds in the column. -/
theorem pathValue_isLocalizedText (hroute : m.route start path = .ok route)
    (hlocalized : route.isLocalized = true) (hholder : m.get? route.holder = some holder)
    {texts : String} (htexts : holder.texts = some texts)
    (hkey : ∀ column, column ∈ textsColumns holder route ↔ column ∈ primaryKey holder)
    (s : Scene) (hrow : s.row role = some row)
    (hlast : s.store.lastRecord row route.hops = some record)
    (honce : s.store.TranslatesOnce texts record (primaryKey holder)) :
    ∃ column e, route.columns = [column] ∧ pathValue m start path (.row role) = .ok e ∧
      IsLocalizedText s.store texts holder route.type column record (s.value e) := by
  obtain ⟨column, hcolumn⟩ := (Model.leads_of_route hroute).column_of_isLocalized hlocalized
  refine ⟨column, routeValue m route (.row role), hcolumn, by rw [pathValue, hroute]; rfl, ?_, ?_⟩
  · intro text hstored htranslates translation htranslation
    rw [value_localizedRoute hroute hlocalized hholder htexts hcolumn hrow hlast,
      textOf_congr hkey, textOf_of_translates honce hstored htranslates, htranslation]
    rfl
  · intro hmissing
    rw [value_localizedRoute hroute hlocalized hholder htexts hcolumn hrow hlast,
      textOf_congr hkey, textOf_eq_none column hmissing, Option.none_or]

/-- The route from a ticket to the title of its concert. -/
def concertTitle : Route where
  hops := [⟨"hall.Concerts", ticketJoins⟩]
  columns := ["title"]
  holder := "hall.Concerts"
  type := "cds.String"
  isLocalized := true
  isComputed := false

/-- The translation of the concert's title. -/
def requiemText : Row :=
  ⟨[("locale", "de"), ("ID", "5"), ("hall", "north"), ("title", "Totenmesse")]⟩

/-- From a ticket the translated title of its concert is found, though the ticket lists the key
columns of concerts the other way round. -/
theorem pathValue_concertTitle : ∃ start e,
    concertModel.get? "hall.Tickets" = some start ∧
      concertModel.route start "concert.title" = .ok concertTitle ∧
      concertModel.get? concertTitle.holder = some concerts ∧
      (∀ column, column ∈ textsColumns concerts concertTitle ↔ column ∈ primaryKey concerts) ∧
      concertStore.lastRecord ticket concertTitle.hops = some concert ∧
      concertStore.TranslatesOnce "hall.Concerts.texts" concert (primaryKey concerts) ∧
      pathValue concertModel start "concert.title" (.row .new) = .ok e ∧
      IsLocalizedText concertStore "hall.Concerts.texts" concerts "cds.String" "title" concert
        ((concertStore.sceneOfNew ticket).value e) ∧
      (concertStore.sceneOfNew ticket).value e = some "Totenmesse" := by
  have hstart : ∃ start, concertModel.get? "hall.Tickets" = some start ∧
      concertModel.route start "concert.title" = .ok concertTitle :=
    ⟨_, rfl, by decide +kernel⟩
  obtain ⟨start, hget, hroute⟩ := hstart
  have hholder : concertModel.get? concertTitle.holder = some concerts := rfl
  have hkey : ∀ column,
      column ∈ textsColumns concerts concertTitle ↔ column ∈ primaryKey concerts := by
    have hcolumns : textsColumns concerts concertTitle = ["hall", "ID"] := rfl
    have hprimary : primaryKey concerts = ["ID", "hall"] := rfl
    intro column
    rw [hcolumns, hprimary, List.mem_pair, List.mem_pair]
    exact or_comm
  have hrow : (concertStore.sceneOfNew ticket).row .new = some ticket := rfl
  have hlast : concertStore.lastRecord ticket concertTitle.hops = some concert := by
    decide +kernel
  have hstored : concertStore.rowsOf "hall.Concerts.texts" = [requiemText] := by decide +kernel
  have honce : concertStore.TranslatesOnce "hall.Concerts.texts" concert (primaryKey concerts) :=
    translatesOnce_of_singleton hstored
  obtain ⟨column, e, hcolumn, he, hvalue⟩ := pathValue_isLocalizedText hroute rfl hholder rfl hkey
    (concertStore.sceneOfNew ticket) hrow hlast honce
  obtain rfl : "title" = column := List.singleton_inj.mp hcolumn
  refine ⟨start, e, hget, hroute, hholder, hkey, hlast, honce, he, hvalue, ?_⟩
  have htranslates : requiemText.Translates concert (primaryKey concerts) concertStore :=
    ⟨"de", rfl, by decide +kernel⟩
  have hmem : requiemText ∈ concertStore.rowsOf "hall.Concerts.texts" :=
    hstored ▸ List.mem_singleton_self requiemText
  exact hvalue.translated requiemText hmem htranslates "Totenmesse" rfl

/-! ## Texts that are missed -/

/-- A localized path that has another value than the text of the record it leads to. -/
def HasWrongText (m : Model) (name path : String) (row : Row) (store : Store) : Prop :=
  ∃ start route holder texts record column e, m.get? name = some start ∧
    m.route start path = .ok route ∧ route.isLocalized = true ∧
    m.get? route.holder = some holder ∧ holder.texts = some texts ∧
    store.lastRecord row route.hops = some record ∧
    store.TranslatesOnce texts record (primaryKey holder) ∧ route.columns = [column] ∧
    pathValue m start path (.row .new) = .ok e ∧
    ¬ IsLocalizedText store texts holder route.type column record
      ((store.sceneOfNew row).value e)

/-- A path has a wrong text where the only text belongs to the record, but is not the value. -/
theorem hasWrongText_of_text (last text : Row) {name : String} {store : Store}
    {texts column translation : String} (hget : m.get? name = some start) (hroute : m.route start path = .ok route)
    (hlocalized : route.isLocalized = true) (hholder : m.get? route.holder = some holder)
    (htexts : holder.texts = some texts) (hcolumn : route.columns = [column])
    (hlast : store.lastRecord row route.hops = some last)
    (hstored : store.rowsOf texts = [text])
    (htranslates : text.Translates last (primaryKey holder) store)
    (htranslation : text.get? column = some translation)
    (hwrong : (store.sceneOfNew row).value (routeValue m route (.row .new)) ≠
      some (recordedText (.ofDeclared route.type) translation)) :
    HasWrongText m name path row store := by
  refine ⟨start, route, holder, texts, last, column, routeValue m route (.row .new), hget, hroute,
    hlocalized, hholder, htexts, hlast, translatesOnce_of_singleton hstored, hcolumn, ?_, ?_⟩
  · rw [pathValue, hroute]
    rfl
  · intro hvalue
    have hmem : text ∈ store.rowsOf texts := hstored ▸ List.mem_singleton_self text
    exact hwrong (hvalue.translated text hmem htranslates translation htranslation)

/-- Chapters of a book, known by the book and a number. -/
def chapterModel : Model where
  entities := NameMap.ofList [
    ("lib.Books", { name := "lib.Books", elements := [{ name := "ID", isKey := true }] }),
    ("lib.Chapters", {
      name := "lib.Chapters"
      texts := some "lib.Chapters.texts"
      elements := [
        { name := "book", type := "cds.Association", isKey := true
          association := some { kind := .reference, target := "lib.Books", keys := ["ID"] } },
        { name := "number", isKey := true },
        { name := "title", isLocalized := true }] })]
  checked := by decide

/-- The route to the title of a chapter. -/
def chapterTitle : Route where
  hops := []
  columns := ["title"]
  holder := "lib.Chapters"
  type := "cds.String"
  isLocalized := true
  isComputed := false

/-- The first chapter of a book. -/
def firstChapter : Row := ⟨[("book_ID", "b1"), ("number", "1"), ("title", "Beginning")]⟩

/-- The translation of its title. -/
def firstChapterText : Row :=
  ⟨[("book_ID", "b1"), ("number", "1"), ("locale", "de"), ("title", "Anfang")]⟩

/-- Orders that refer to their currency by its code, which is not its key. -/
def currencyModel : Model where
  entities := NameMap.ofList [
    ("shop.Orders", {
      name := "shop.Orders"
      elements := [
        { name := "ID", isKey := true },
        { name := "currencyCode" },
        { name := "currency", type := "cds.Association"
          association := some {
            kind := .reference, target := "shop.Currencies", on := [⟨"code", "currencyCode"⟩] } }] }),
    ("shop.Currencies", {
      name := "shop.Currencies"
      texts := some "shop.Currencies.texts"
      elements := [
        { name := "ID", isKey := true },
        { name := "code" },
        { name := "name", isLocalized := true }] })]
  checked := by decide

/-- The route from an order to the name of its currency. -/
def currencyName : Route where
  hops := [⟨"shop.Currencies", [⟨"code", "currencyCode"⟩]⟩]
  columns := ["name"]
  holder := "shop.Currencies"
  type := "cds.String"
  isLocalized := true
  isComputed := false

/-- A currency. -/
def dollar : Row := ⟨[("ID", "c1"), ("code", "USD"), ("name", "US dollar")]⟩

/-- The translation of its name. -/
def dollarText : Row := ⟨[("ID", "c1"), ("locale", "de"), ("name", "US-Dollar")]⟩

/-- The title of a chapter is not found by the name of its key element, and the name of a currency
not by the code that an order holds; both are recorded untranslated. -/
theorem hasWrongText_of_otherColumns :
    HasWrongText chapterModel "lib.Chapters" "title" firstChapter
        { rows := [("lib.Chapters.texts", firstChapterText)], locale := some "de" } ∧
      HasWrongText currencyModel "shop.Orders" "currency.name"
        ⟨[("ID", "1"), ("currencyCode", "USD")]⟩
        { rows := [("shop.Currencies", dollar), ("shop.Currencies.texts", dollarText)]
          locale := some "de" } := by
  have hchapters : ∃ start, chapterModel.get? "lib.Chapters" = some start ∧
      chapterModel.route start "title" = .ok chapterTitle :=
    ⟨_, rfl, by decide +kernel⟩
  have horders : ∃ start, currencyModel.get? "shop.Orders" = some start ∧
      currencyModel.route start "currency.name" = .ok currencyName :=
    ⟨_, rfl, by decide +kernel⟩
  obtain ⟨chapters, hgetChapters, hrouteChapters⟩ := hchapters
  obtain ⟨orders, hgetOrders, hrouteOrders⟩ := horders
  constructor
  · exact hasWrongText_of_text firstChapter firstChapterText hgetChapters hrouteChapters
      rfl rfl rfl rfl rfl (by decide +kernel) ⟨"de", rfl, by decide +kernel⟩ rfl
      (by decide +kernel)
  · exact hasWrongText_of_text dollar dollarText hgetOrders hrouteOrders rfl rfl rfl rfl
      (by decide +kernel) (by decide +kernel) ⟨"de", rfl, by decide +kernel⟩ rfl
      (by decide +kernel)

end ChangeTracking.Firing
