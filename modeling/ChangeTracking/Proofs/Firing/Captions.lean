import ChangeTracking.Proofs.Firing.Recording
import ChangeTracking.Proofs.Plan.PlannedSets
import ChangeTracking.Proofs.Plan.Success
import ChangeTracking.Proofs.Tracking.Analyses

/-!
# Captions

A record shows a reader what it is about: the identifiers of the row and of its owner, and the
labels of a relationship.  All of them are phrases, and a phrase is cut as a whole, after its
parts are joined.  So a caption that is there is not empty and fits into a record, however many
parts it has and wherever they are read.  The values of texts are cut as well.
-/

namespace ChangeTracking.Plan

open Schema (Entity Model)
open Tracking (Analysis Attribute Descriptor IdentityField RootLink ValueClass analyze)

variable {m : Model} {settings : Settings}

/-! ## Phrases of a set -/

/-- The expression joins its parts and cuts what it joined. -/
def IsPhrase (e : Expr) : Prop := ∃ parts, e = .encoded .truncated (.listJoin parts)

/-- The expression cuts a value. -/
def IsCut (e : Expr) : Prop := ∃ inner, e = .encoded .truncated inner

theorem isPhrase_of_phrase {entity : Entity} {paths : List (String × Origin)} {e : Expr}
    (h : phrase m entity paths = some e) : IsPhrase e := by
  obtain ⟨values, -, rfl, -⟩ := parts_of_phrase h
  exact ⟨values, rfl⟩

theorem IsPhrase.bind {e : Expr} (h : IsPhrase e) (row : RowRole) : IsPhrase (e.bind row) := by
  obtain ⟨parts, rfl⟩ := h
  exact ⟨Expr.bindAll row parts, by rw [Expr.bind, Expr.bind]⟩

theorem IsCut.bind {e : Expr} (h : IsCut e) (row : RowRole) : IsCut (e.bind row) := by
  obtain ⟨inner, rfl⟩ := h
  exact ⟨inner.bind row, by rw [Expr.bind]⟩

/-- Whatever a set shows a reader is a phrase, and the values of texts are cut. -/
structure TriggerSet.Captioned (set : TriggerSet) : Prop where
  identifier : ∀ e, set.identifier = some e → IsPhrase e
  rootIdentifier : ∀ e, set.owner.bind (·.identifier) = some e → IsPhrase e
  labels : ∀ column ∈ set.columns, ∀ e, column.label = some e → IsPhrase e
  texts : ∀ column ∈ set.columns, (ValueClass.ofDeclared column.type).isText = true →
    IsCut column.value

theorem isPhrase_of_owner {child rootName : String} {childKey : List String} {link : RootLink}
    {fields : List IdentityField} {o : Owner} (h : owner m child childKey rootName link fields = .ok o)
    {e : Expr} (he : o.identifier = some e) : IsPhrase e := by
  obtain ⟨root, -, -, hidentifier⟩ := parts_of_owner h
  rw [hidentifier] at he
  exact isPhrase_of_phrase he

/-- An attribute of text is read from its column and cut; a relationship is no text. -/
theorem isCut_of_trackedAs {db : Entity} {element : Schema.Element} {tracked : Attribute}
    (h : Tracking.TrackedAs m db element tracked)
    (htext : (ValueClass.ofDeclared tracked.type).isText = true) :
    IsCut (attributeValue tracked) := by
  cases h with
  | plain _ =>
      have hrule : TextRule.of (.ofDeclared element.type) = .truncated := by
        change (ValueClass.ofDeclared element.type).isText = true at htext
        have hboolean : ValueClass.ofDeclared element.type ≠ .boolean := by
          intro hboolean
          rw [hboolean] at htext
          cases htext
        rw [TextRule.of, if_neg hboolean, if_pos htext]
      exact ⟨.column .subject element.name, congrArg (Expr.encoded · _) hrule⟩
  | @relation association _ _ _ =>
      cases hkind : association.kind <;>
        simp only [Tracking.relationAttribute, Tracking.relationOf, hkind] at htext
      · exact absurd htext (by decide)
      · exact absurd htext (by decide)

variable {name : String} {a : Analysis}

/-- Labels are phrases; a collection has none. -/
theorem labels_of_planAll {d : Descriptor} {sets : List TriggerSet}
    (hplan : planAll m d settings = .ok sets) {set : TriggerSet} (hset : set ∈ sets) :
    ∀ column ∈ set.columns, ∀ e, column.label = some e → IsPhrase e := by
  rcases mem_planAll hplan hset with hown | ⟨c, -, hcollection⟩
  · obtain ⟨_, -, hcolumns⟩ := columns_of_planEntity hown
    rw [hcolumns, List.forall_mem_map]
    exact fun tracked _ e he => isPhrase_of_phrase he
  · obtain ⟨_, column, -, hcolumns, -, hlabel, -⟩ := columns_of_planCollection hcollection
    rw [hcolumns, List.forall_mem_singleton, hlabel]
    exact fun e he => nomatch he

/-- The texts of a set are attributes of its entity; a collection is no text. -/
theorem texts_of_planAll (h : analyze m name settings = .ok a) {settings' : Settings}
    {sets : List TriggerSet} (hplan : planAll m a.descriptor settings' = .ok sets)
    {set : TriggerSet} (hset : set ∈ sets) :
    ∀ column ∈ set.columns, (ValueClass.ofDeclared column.type).isText = true →
      IsCut column.value := by
  rcases mem_planAll hplan hset with hown | ⟨c, -, hcollection⟩
  · obtain ⟨_, -, hcolumns⟩ := columns_of_planEntity hown
    rw [hcolumns, List.forall_mem_map]
    intro tracked htracked htext
    obtain ⟨db, element, -, -, -, has⟩ := Tracking.trackedAs_of_mem_attributes h htracked
    exact isCut_of_trackedAs has htext
  · obtain ⟨column, hcolumns, -, htype, -⟩ := column_of_planCollection hcollection
    rw [hcolumns, List.forall_mem_singleton, htype]
    exact fun htext => absurd htext (by decide)

theorem captioned_of_planAll (h : analyze m name settings = .ok a) {settings' : Settings}
    {sets : List TriggerSet} (hplan : planAll m a.descriptor settings' = .ok sets)
    {set : TriggerSet} (hset : set ∈ sets) : set.Captioned := by
  obtain ⟨-, ⟨entity, fields, hidentifier⟩, howner⟩ := identity_of_planAll hplan hset
  constructor
  case identifier => exact fun e he => isPhrase_of_phrase (hidentifier ▸ he)
  case rootIdentifier =>
    intro e he
    obtain ⟨o, ho, he⟩ := Option.bind_eq_some_iff.mp he
    obtain ⟨_, _, _, ho⟩ := howner o ho
    exact isPhrase_of_owner ho he
  case labels => exact labels_of_planAll hplan hset
  case texts => exact texts_of_planAll h hplan hset

end ChangeTracking.Plan

namespace ChangeTracking.Firing

open Plan (Expr IsCut IsPhrase Operation RowRole TrackedColumn TriggerSet)
open Tracking (ValueClass)

/-! ## Captions of a record -/

/-- The text can stand for something: it is not empty, and fits into a record. -/
structure IsCaption (text : String) : Prop where
  ne_empty : text ≠ ""
  length_le : text.length ≤ 5000

theorem length_le_of_isCut {e : Expr} (h : IsCut e) {s : Scene} {text : String}
    (htext : s.value e = some text) : text.length ≤ 5000 := by
  obtain ⟨inner, rfl⟩ := h
  rw [Scene.value] at htext
  obtain ⟨value, -, rfl⟩ := Option.map_eq_some_iff.mp htext
  exact Plan.length_truncate_le value

theorem isCaption_of_isPhrase {e : Expr} (h : IsPhrase e) {s : Scene} {text : String}
    (htext : s.value e = some text) : IsCaption text := by
  obtain ⟨parts, rfl⟩ := h
  refine ⟨?_, length_le_of_isCut ⟨_, rfl⟩ htext⟩
  rw [Scene.value, Scene.value] at htext
  obtain ⟨joined, hjoined, rfl⟩ := Option.map_eq_some_iff.mp htext
  exact Plan.truncate_ne_empty (Plan.joinNonEmpty_ne_empty hjoined)

/-- The record's captions and texts fit: a caption that is there is not empty. -/
structure ChangeRecord.Fits (r : ChangeRecord) : Prop where
  objectId : ∀ text, r.objectId = some text → IsCaption text
  rootObjectId : ∀ text, r.rootObjectId = some text → IsCaption text
  labelBefore : ∀ text, r.labelBefore = some text → IsCaption text
  labelAfter : ∀ text, r.labelAfter = some text → IsCaption text
  texts : (ValueClass.ofDeclared r.type).isText = true →
    ∀ text, r.before = some text ∨ r.after = some text → text.length ≤ 5000

section Values

variable {s : Scene} {row : RowRole} {text : String}

theorem isCaption_of_bound {phrase : Option Expr} (h : ∀ e, phrase = some e → IsPhrase e)
    (htext : s.value (TriggerSet.bound row phrase) = some text) : IsCaption text := by
  cases phrase with
  | none => cases htext
  | some e => exact isCaption_of_isPhrase ((h e rfl).bind row) htext

theorem isCaption_of_labelOn {column : TrackedColumn}
    (h : ∀ e, column.label = some e → IsPhrase e)
    (htext : s.value (column.labelOn row) = some text) : IsCaption text := by
  have hbound : column.labelOn row = TriggerSet.bound row column.label := by
    rw [TrackedColumn.labelOn]
    cases column.label <;> rfl
  exact isCaption_of_bound h (hbound ▸ htext)

end Values

/-- What is recorded of a column of such a set fits. -/
theorem fits_record {set : TriggerSet} (h : set.Captioned) (s : Scene) (op : Operation)
    {column : TrackedColumn} (hcolumn : column ∈ set.columns) : (s.record set op column).Fits := by
  have hlabel {row : RowRole} {text : String}
      (htext : s.value (column.labelOn row) = some text) : IsCaption text :=
    isCaption_of_labelOn (h.labels column hcolumn) htext
  have hvalue (hclass : (ValueClass.ofDeclared column.type).isText = true) {row : RowRole}
      {text : String} (htext : s.value (column.valueOn row) = some text) : text.length ≤ 5000 :=
    length_le_of_isCut ((h.texts column hcolumn hclass).bind row) htext
  -- A create has nothing before and a delete nothing after; what is there is cut.
  constructor
  case objectId => exact fun text htext => isCaption_of_bound h.identifier htext
  case rootObjectId => exact fun text htext => isCaption_of_bound h.rootIdentifier htext
  case labelBefore =>
    intro text htext
    cases op with
    | create => cases htext
    | update => exact hlabel htext
    | delete => exact hlabel htext
  case labelAfter =>
    intro text htext
    cases op with
    | create => exact hlabel htext
    | update => exact hlabel htext
    | delete => cases htext
  case texts =>
    intro hclass text htext
    cases op with
    | create => exact htext.elim (fun hbefore => nomatch hbefore) (hvalue hclass)
    | update => exact htext.elim (hvalue hclass) (hvalue hclass)
    | delete => exact htext.elim (hvalue hclass) (fun hafter => nomatch hafter)

theorem mem_columns_of_emitted {set : TriggerSet} {op : Operation} {old new : Option Row}
    {store : Store} {skips : Skip.Session} {column : TrackedColumn}
    (h : column ∈ emittedColumns set op old new store skips) : column ∈ set.columns := by
  unfold emittedColumns at h
  split at h
  · exact (List.mem_filter.mp h).1
  · cases h

/-- Whatever was analyzed is planned, and each record that the triggers of one of its sets emit
has captions that fit: the identifier of the row, that of its owner and the labels are missing, or
not empty and of at most 5000 characters.  The recorded values of texts are missing or of at most
5000 characters. -/
theorem fits_of_fire {m : Schema.Model} {settings : Settings} {name : String}
    {a : Tracking.Analysis} (h : Tracking.analyze m name settings = .ok a) :
    ∃ sets, Plan.planAll m a.descriptor settings = .ok sets ∧
      ∀ set ∈ sets, ∀ op old new store skips,
        ∀ r ∈ (fire set op old new store skips).records, r.Fits := by
  obtain ⟨sets, hsets⟩ := Plan.exists_planAll h settings
  refine ⟨sets, hsets, fun set hset op old new store skips r hr => ?_⟩
  rw [records_fire] at hr
  obtain ⟨column, hcolumn, rfl⟩ := List.mem_map.mp hr
  exact fits_record (Plan.captioned_of_planAll h hsets hset) _ op (mem_columns_of_emitted hcolumn)

/-! ### Deliveries -/

namespace Deliveries

/-- Deliveries to a customer, with parcels that hold a product. -/
def model : Schema.Model where
  entities := NameMap.ofList [
    ("post.Customers", {
      name := "post.Customers"
      elements := [{ name := "ID", isKey := true }, { name := "name" }] }),
    ("post.Deliveries", {
      name := "post.Deliveries"
      directive := some (.paths ["customer.name", "note", "title"])
      elements := [
        { name := "ID", isKey := true }, { name := "title" }, { name := "note" },
        { name := "customer", type := "cds.Association"
          association := some { kind := .reference, target := "post.Customers", keys := ["ID"] } },
        { name := "parcels", type := "cds.Composition"
          association := some {
            kind := .composition, target := "post.Parcels", many := true
            on := [⟨"delivery_ID", "ID"⟩] } }] }),
    ("post.Parcels", {
      name := "post.Parcels"
      directive := some (.paths ["mark", "product.name"])
      elements := [
        { name := "ID", isKey := true },
        { name := "mark", directive := some (.marker true) },
        { name := "product", type := "cds.Association"
          association := some { kind := .reference, target := "post.Products", keys := ["ID"] }
          directive := some (.paths ["product.name"]) },
        { name := "delivery", type := "cds.Association"
          association := some {
            kind := .reference, target := "post.Deliveries", keys := ["ID"] } }] }),
    ("post.Products", {
      name := "post.Products"
      elements := [{ name := "ID", isKey := true }, { name := "name" }] })]
  checked := by decide

/-- A parcel without a mark. -/
def parcel : Row := ⟨[("ID", "1"), ("mark", ""), ("product_ID", "p"), ("delivery_ID", "d")]⟩

/-- Its delivery, which has no note, with the customer, and the product. -/
def store : Store where
  rows := [
    ("post.Customers", ⟨[("ID", "c"), ("name", "Ann")]⟩),
    ("post.Deliveries", ⟨[("ID", "d"), ("title", "Spring"), ("note", ""), ("customer_ID", "c")]⟩),
    ("post.Products", ⟨[("ID", "p"), ("name", "Pen")]⟩)]

/-- What a record shows. -/
def shown (r : ChangeRecord) : List (Option String) :=
  [r.after, r.objectId, r.rootObjectId, r.labelAfter]

/-- What the records of the new parcel show, set by set. -/
def shownRecords (sets : List TriggerSet) : List (List (List (Option String))) :=
  sets.map fun set => (fire set .create none (some parcel) store {}).records.map shown

/-- The empty mark is recorded, and left out of the identifiers, as is the missing note. -/
theorem fits_parcel : ∃ a sets, Tracking.analyze model "post.Parcels" {} = .ok a ∧
    Plan.planAll model a.descriptor {} = .ok sets ∧
    shownRecords sets = [[
      [some "", some "Pen", some "Ann, Spring", none],
      [some "p", some "Pen", some "Ann, Spring", some "Pen"]]] ∧
    ∀ set ∈ sets, ∀ op old new store skips,
      ∀ r ∈ (fire set op old new store skips).records, r.Fits := by
  have hshown : ((Tracking.analyze model "post.Parcels" {}).bind fun a =>
      (Plan.planAll model a.descriptor {}).map shownRecords) = .ok [[
        [some "", some "Pen", some "Ann, Spring", none],
        [some "p", some "Pen", some "Ann, Spring", some "Pen"]]] := by
    decide +kernel
  obtain ⟨a, ha, hshown⟩ := bind_eq_ok.mp hshown
  obtain ⟨sets, hsets, hshown⟩ := map_eq_ok.mp hshown
  obtain ⟨sets', hsets', hfits⟩ := fits_of_fire ha
  cases hsets.symm.trans hsets'
  exact ⟨a, sets, ha, hsets, hshown, hfits⟩

end Deliveries

end ChangeTracking.Firing
