import ChangeTracking.Proofs.Tracking.Analyses
import Mathlib.Control.Monad.Basic

/-!
# Links that lead to the root

Analysis links the records of a child to those of a root: to the owner that a child is bound
to, and from the children of a collection back to the entity that collects them.  Foreign
keys are taken from a reference that names the root.  The back reference is taken by its own
name, whatever it points to; so the main statement, that every link is the link of an
association that points to the root, asks this of the back reference.
-/

namespace ChangeTracking.Tracking

open Schema (ColumnPair Element Entity Model)

variable {m : Model} {settings : Settings} {child root : Entity} {link : RootLink}

/-! ## Where a link comes from -/

/-- The element is an association to the root, or to a projection of it. -/
def pointsTo (m : Model) (root : Entity) (element : Element) : Bool :=
  match element.association with
  | none => false
  | some association =>
      match m.get? association.target with
      | none => false
      | some target => m.endsIn root.name target

/-- The link compares the columns that the association at the element compares: its foreign
keys, or the columns of its condition. -/
def RootLink.IsOf (element : Element) : RootLink → Prop
  | .foreignKeys joins => joins = keyPairs element
  | .backReference field joins => field = element.name ∧ joins = onPairs element

instance (element : Element) : DecidablePred (RootLink.IsOf element) := fun link => by
  cases link <;> unfold RootLink.IsOf <;> infer_instance

/-- The link is that of an association of the child that points to the root. -/
def LeadsToRoot (m : Model) (child root : Entity) (link : RootLink) : Prop :=
  ∃ element ∈ child.elements, pointsTo m root element = true ∧ link.IsOf element

instance (m : Model) (child root : Entity) : DecidablePred (LeadsToRoot m child root) :=
  fun link => inferInstanceAs
    (Decidable (∃ element ∈ child.elements, pointsTo m root element = true ∧ link.IsOf element))

/-- The descriptor links the records of the child to those of the root. -/
inductive Linked (m : Model) (d : Descriptor) : Entity → Entity → RootLink → Prop
  /-- The entity itself is the child of the owner that it is bound to. -/
  | binding {child root : Entity} {name : String} {link : RootLink} {fields : List IdentityField}
      (hbinding : d.binding = some ⟨name, link, fields⟩) (hchild : m.get? d.entity = some child)
      (hroot : m.get? name = some root) : Linked m d child root link
  /-- The entity is the root of the children that it collects. -/
  | collection {child root : Entity} {c : Collection} {link : RootLink} (hc : c ∈ d.collections)
      (hlink : c.link = some link) (hchild : m.get? c.target = some child)
      (hroot : m.get? d.entity = some root) : Linked m d child root link

/-! ## Links of an analysis -/

/-- What is linked owns a table, and the link is the one that the child has to the root. -/
theorem rootLink_of_linked {name : String} {a : Analysis} (h : analyze m name settings = .ok a)
    (hlinked : Linked m a.descriptor child root link) :
    m.get? root.name = some root ∧ root.projectionOf = none ∧ rootLink child root = some link := by
  obtain ⟨requested, db, merged, findings, found, warnings, hrequested, hdb, -, hfindings,
    hbound, hdescriptor⟩ := steps_of_analyze h
  obtain ⟨hget, hprojection⟩ := Schema.Model.get?_databaseEntity hrequested hdb
  rw [hdescriptor] at hlinked
  -- The child of a binding is the entity at hand; that of a collection is its target.
  cases hlinked with
  | binding hbinding hchild hroot =>
      have hsome : found = some _ := hbinding
      rw [hsome] at hbound
      obtain ⟨root', _, hroot', hprojection', hlink, -⟩ := root_of_rootBinding hbound
      cases hchild.symm.trans hget
      cases hroot.symm.trans hroot'
      exact ⟨by rw [Schema.Model.name_of_get? hroot, hroot], hprojection', hlink⟩
  | collection hc hlink hchild hroot =>
      obtain ⟨finding, hfinding, hc⟩ := List.mem_filterMap.mp hc
      obtain ⟨element, -, hexamine⟩ := exists_of_mem_mapM hfindings hfinding
      obtain ⟨target, _, htarget, -, rfl⟩ := collectedAs_of_examine hexamine hc
      cases hroot.symm.trans hget
      cases hchild.symm.trans htarget
      exact ⟨hget, hprojection, hlink⟩

/-- A reference that names the root points to it. -/
theorem pointsTo_of_refersTo (hget : m.get? root.name = some root)
    (hprojection : root.projectionOf = none) {element : Element}
    (h : refersTo root element = true) : pointsTo m root element = true := by
  unfold refersTo at h
  split at h
  · cases h
  · rename_i association hassociation
    simp only [Bool.and_eq_true, beq_iff_eq] at h
    have htarget : association.target = root.name := h.1.2
    rw [pointsTo, hassociation]
    dsimp only
    rw [htarget, hget]
    dsimp only [Schema.Model.endsIn]
    rw [Schema.Model.databaseEntity_of_projectionOf hprojection]
    exact beq_self_eq_true _

/-- Every link of an analysis is that of an association of the child which points to the root,
if this holds of the back reference where the child is linked by it. -/
theorem leadsToRoot_of_linked {name : String} {a : Analysis}
    (h : analyze m name settings = .ok a) (hlinked : Linked m a.descriptor child root link)
    (hback : ∀ field joins, link = .backReference field joins →
      ∀ element, child.element? field = some element → pointsTo m root element = true) :
    LeadsToRoot m child root link := by
  obtain ⟨hget, hprojection, hlink⟩ := rootLink_of_linked h hlinked
  rcases rootLink_cases hlink with ⟨element, hmem, hrefers, rfl⟩ | ⟨element, helement, -, rfl⟩
  · exact ⟨element, hmem, pointsTo_of_refersTo hget hprojection hrefers, rfl⟩
  · have hname : element.name = backReferenceName := by
      simpa using List.find?_some helement
    have hpoints := hback _ _ rfl element (by rw [hname, helement])
    exact ⟨element, List.mem_of_find?_eq_some helement, hpoints, rfl, rfl⟩

/-! ## Back references of items -/

/-- Orders, a projection of them, boxes, and children of the orders whose back reference points
to the given entity. -/
def backReferenceEntities (target : String) (condition : Schema.OnTerm) : NameMap Entity :=
  NameMap.ofList [
    ("shop.Orders", {
      name := "shop.Orders"
      elements := [
        { name := "ID", isKey := true },
        { name := "items", type := "cds.Composition"
          association := some {
            kind := .composition, target := "shop.Items", many := true
            on := [⟨"order_ID", "ID"⟩] } }] }),
    ("OrderService.Orders", {
      name := "OrderService.Orders"
      projectionOf := some "shop.Orders"
      elements := [{ name := "ID", isKey := true }] }),
    ("shop.Boxes", {
      name := "shop.Boxes"
      elements := [{ name := "ID", isKey := true }] }),
    ("shop.Items", {
      name := "shop.Items"
      elements := [
        { name := "ID", isKey := true },
        { name := "order_ID" },
        { name := "box_ID" },
        { name := "up_", type := "cds.Association"
          association := some { kind := .reference, target := target, on := [condition] } },
        { name := "amount", directive := some (.marker true) }] })]

/-- The back reference of the items points to a projection of their order. -/
def orderedItems : Model :=
  ⟨backReferenceEntities "OrderService.Orders" ⟨"ID", "order_ID"⟩, by decide⟩

/-- The back reference of the items points to the box that they lie in. -/
def boxedItems : Model := ⟨backReferenceEntities "shop.Boxes" ⟨"ID", "box_ID"⟩, by decide⟩

/-- The descriptor of the items that are linked to their order by the given columns. -/
def itemsLinkedBy (joins : List ColumnPair) : Descriptor where
  entity := "shop.Items"
  service := none
  primaryKey := ["ID"]
  attributes := [plainAttribute { name := "amount" }]
  identity := []
  collections := []
  binding := some ⟨"shop.Orders", .backReference "up_" joins, []⟩

/-- A back reference to a projection of the root leads to the root. -/
theorem leadsToRoot_orderedItems : ∃ child root,
    analyze orderedItems "shop.Items" {} = .ok ⟨itemsLinkedBy [⟨"ID", "order_ID"⟩], []⟩ ∧
      Linked orderedItems (itemsLinkedBy [⟨"ID", "order_ID"⟩]) child root
        (.backReference "up_" [⟨"ID", "order_ID"⟩]) ∧
      (∀ field joins, RootLink.backReference "up_" [⟨"ID", "order_ID"⟩] =
          .backReference field joins →
        ∀ element, child.element? field = some element →
          pointsTo orderedItems root element = true) ∧
      LeadsToRoot orderedItems child root (.backReference "up_" [⟨"ID", "order_ID"⟩]) := by
  have hanalyze : analyze orderedItems "shop.Items" {} =
      .ok ⟨itemsLinkedBy [⟨"ID", "order_ID"⟩], []⟩ := by decide +kernel
  obtain ⟨child, hchild⟩ : ∃ child, orderedItems.get? "shop.Items" = some child := ⟨_, rfl⟩
  obtain ⟨root, hroot⟩ : ∃ root, orderedItems.get? "shop.Orders" = some root := ⟨_, rfl⟩
  have hlinked : Linked orderedItems (itemsLinkedBy [⟨"ID", "order_ID"⟩]) child root
      (.backReference "up_" [⟨"ID", "order_ID"⟩]) := .binding rfl hchild hroot
  have hpoints : ((child.element? "up_").all (pointsTo orderedItems root)) = true := by
    cases hchild
    cases hroot
    decide +kernel
  have hback : ∀ field joins, RootLink.backReference "up_" [⟨"ID", "order_ID"⟩] =
      .backReference field joins → ∀ element, child.element? field = some element →
        pointsTo orderedItems root element = true := by
    rintro field joins ⟨⟩ element helement
    rw [helement] at hpoints
    exact hpoints
  exact ⟨child, root, hanalyze, hlinked, hback, leadsToRoot_of_linked hanalyze hlinked hback⟩

/-- A back reference to the boxes is taken for a link to the orders, though no association of
the items points to an order. -/
theorem boxedItems_linked_to_orders : ∃ a child root link,
    analyze boxedItems "shop.Items" {} = .ok a ∧ boxedItems.get? "shop.Orders" = some root ∧
      Linked boxedItems a.descriptor child root link ∧
      (∀ element ∈ child.elements, pointsTo boxedItems root element = false) ∧
      ¬ LeadsToRoot boxedItems child root link := by
  have hanalyze : analyze boxedItems "shop.Items" {} =
      .ok ⟨itemsLinkedBy [⟨"ID", "box_ID"⟩], []⟩ := by decide +kernel
  have hlinked := Linked.binding (m := boxedItems) (d := itemsLinkedBy [⟨"ID", "box_ID"⟩])
    rfl rfl rfl
  exact ⟨_, _, _, _, hanalyze, rfl, hlinked, by decide +kernel, by decide +kernel⟩

end ChangeTracking.Tracking
