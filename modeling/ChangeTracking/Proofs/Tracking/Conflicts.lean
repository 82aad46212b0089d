import Mathlib.Control.Monad.Basic
import ChangeTracking.Proofs.Schema.Chains
import ChangeTracking.Proofs.Tracking.Analyses
import ChangeTracking.Proofs.Tracking.Directives

/-!
# Conflicts of an entity and of its relatives

The analysis of an entity merges the directives of the entity itself, of the owner that it is
linked to, and of the children that it collects without telling them apart by paths.  So it is
stopped by a conflict of the entity, and also by one of these relatives.
-/

namespace ChangeTracking.Tracking

open Schema (Association Element Entity Model)

variable {m : Model} {settings : Settings}

/-! ## Relatives -/

/-- The chain of projections from the entity of this name ends in `owner`. -/
def EndsIn (m : Model) (name : String) (owner : Entity) : Prop :=
  ∃ e, m.get? name = some e ∧ m.databaseEntity e = .ok owner

theorem EndsIn.registered {name : String} {owner : Entity} (h : EndsIn m name owner) :
    m.get? owner.name = some owner := by
  obtain ⟨e, hget, howner⟩ := h
  exact (Model.get?_databaseEntity hget howner).1

/-- The merged directives ask to track the element. -/
structure Asks (m : Model) (db : Entity) (element : Element) (declared : Declared) : Prop where
  declared_eq : ∃ merged, mergeDirectives m db = .ok merged ∧
    merged.elements.get? element.name = some declared
  enabled : declared.directive.isEnabled = true

/-- The entity has a composition of many that the merged directives ask to track. -/
structure Collects (m : Model) (db : Entity) (element : Element) (association : Association)
    (declared : Declared) : Prop extends Asks m db element declared where
  element_mem : element ∈ db.elements
  association_eq : element.association = some association
  ofMany : association.isCompositionOfMany = true

/-- The analysis of `db` merges the directives of the entity as well. -/
inductive Consults (m : Model) (db : Entity) : Entity → Prop
  /-- The first owner of the records, if they are linked to it. -/
  | owner {root : Entity} {element : Element} {rest : List (Entity × Element)}
      (hparents : m.compositionParents db.name = (root, element) :: rest)
      (hlink : rootLink db root ≠ none) : Consults m db root
  /-- The target of a collection whose directive has no paths of the children. -/
  | target {element : Element} {association : Association} {declared : Declared} {child : Entity}
      (hcollects : Collects m db element association declared)
      (hchild : EndsIn m association.target child)
      (hpaths : relativePaths element declared.directive.pathList = []) : Consults m db child

theorem Consults.registered {db e : Entity} (h : Consults m db e) : m.get? e.name = some e := by
  cases h with
  | owner hparents hlink =>
      exact (registered_of_mem_compositionParents (hparents ▸ List.mem_cons_self)).1
  | target hcollects hchild hpaths => exact hchild.registered

/-! ## What stops an analysis -/

/-- The entity of this name has no table, for one of the reasons that a chain breaks off. -/
def NoTable (m : Model) (name : String) (fault : Fault) : Prop :=
  m.get? name = none ∧ fault = .unknownEntity name ∨
    ∃ e, m.get? name = some e ∧ m.databaseEntity e = .error fault

theorem EndsIn.unique {name : String} {db db' : Entity} (h : EndsIn m name db)
    (h' : EndsIn m name db') : db = db' := by
  obtain ⟨e, hget, howner⟩ := h
  obtain ⟨e', hget', howner'⟩ := h'
  cases hget.symm.trans hget'
  exact Except.ok.inj (howner.symm.trans howner')

theorem EndsIn.not_noTable {name : String} {db : Entity} (h : EndsIn m name db) {fault : Fault} :
    ¬ NoTable m name fault := by
  obtain ⟨e, hget, howner⟩ := h
  rintro (⟨hnone, -⟩ | ⟨e', hget', hfault⟩)
  · cases hget.symm.trans hnone
  · cases hget.symm.trans hget'
    cases howner.symm.trans hfault

theorem NoTable.cases {name : String} {fault : Fault} (h : NoTable m name fault) :
    (∃ entity, fault = .unknownEntity entity) ∨
      ∃ location reason, fault = .invalidSchema location reason := by
  rcases h with ⟨-, hfault⟩ | ⟨e, hget, hfault⟩
  · exact .inl ⟨name, hfault⟩
  · have hregistered : m.get? e.name = some e := by
      rw [Model.name_of_get? hget, hget]
    rcases Model.databaseEntity_cases hregistered with ⟨owner, howner, -⟩ | ⟨reason, hreason, -⟩
    · cases howner.symm.trans hfault
    · cases hreason.symm.trans hfault
      exact .inr ⟨_, _, rfl⟩

/-- The look-up of a table ends in the entity that owns it, or at a fault of the chain. -/
theorem table_cases {α : Type} {name : String} {f : Entity → Entity → Except Fault α}
    {fault : Fault}
    (h : (m.entity name >>= fun e => m.databaseEntity e >>= fun owner => f e owner) =
      .error fault) :
    NoTable m name fault ∨
      ∃ e owner, m.get? name = some e ∧ m.databaseEntity e = .ok owner ∧
        f e owner = .error fault := by
  rcases bind_eq_error.mp h with hentity | ⟨e, hentity, h⟩
  · refine .inl (.inl ?_)
    unfold Model.entity at hentity
    split at hentity
    · cases hentity
    · cases hentity
      exact ⟨‹_›, rfl⟩
  · rw [Model.entity_eq_ok_iff] at hentity
    rcases bind_eq_error.mp h with howner | ⟨owner, howner, hf⟩
    · exact .inl (.inr ⟨e, hentity, howner⟩)
    · exact .inr ⟨e, owner, hentity, howner, hf⟩

/-- What stops the analysis of a database entity. -/
inductive Stops (m : Model) (settings : Settings) (db : Entity) : Fault → Prop
  /-- Directives of the entity conflict. -/
  | conflict {fault : Fault} (h : mergeDirectives m db = .error fault) : Stops m settings db fault
  /-- The children of a collection have no table. -/
  | lostChildren {element : Element} {association : Association} {declared : Declared}
      {fault : Fault} (hcollects : Collects m db element association declared)
      (h : NoTable m association.target fault) : Stops m settings db fault
  /-- Directives of a relative conflict. -/
  | relative {e : Entity} {fault : Fault} (hagree : SourcesAgree m db) (he : Consults m db e)
      (h : mergeDirectives m e = .error fault) : Stops m settings db fault
  /-- The settings insist on an owner that there is no way to. -/
  | unbound {root : String} (hstrict : settings.strictRootBinding = true) :
      Stops m settings db (.unboundRoot db.name root)
  /-- There is no key. -/
  | keyless {reason : String} (hkey : primaryKey db = []) :
      Stops m settings db (.invalidSchema db.name reason)

theorem stops_of_examine {db : Entity} {merged : Merged} {element : Element} {fault : Fault}
    (hmerged : mergeDirectives m db = .ok merged) (helement : element ∈ db.elements)
    (h : examine m db merged element = .error fault) : Stops m settings db fault := by
  unfold examine at h
  split at h
  · cases h
  · rename_i declared hdeclared
    split at h
    · cases h
    · rename_i henabled
      split at h
      · rename_i association hassociation
        split at h
        -- Only a collection asks for another entity, and for its directives where no paths of the
        -- collection identify the children.
        · rename_i hmany
          have hcollects : Collects m db element association declared :=
            ⟨⟨⟨merged, hmerged, hdeclared⟩, by simpa using henabled⟩, helement, hassociation, hmany⟩
          rcases table_cases h with hlost | ⟨next, child, hnext, hchild, h⟩
          · exact .lostChildren hcollects hlost
          · rcases bind_eq_error.mp h with hpaths | ⟨paths, -, h⟩
            · unfold childPaths at hpaths
              split at hpaths
              · rename_i hrelative
                exact .relative (sourcesAgree_of_mergeDirectives hmerged)
                  (.target hcollects ⟨next, hnext, hchild⟩ (List.isEmpty_iff.mp hrelative))
                  (map_eq_error.mp hpaths)
              · cases hpaths
            · cases h
        · cases h
      · cases h

theorem stops_of_rootBinding {db : Entity} (hagree : SourcesAgree m db) {fault : Fault}
    (h : rootBinding m db settings = .error fault) : Stops m settings db fault := by
  unfold rootBinding at h
  split at h
  · cases h
  · rename_i root element rest hparents
    split at h
    · split at h
      · rename_i hstrict
        cases h
        exact .unbound hstrict
      · cases h
    · rename_i link hlink
      rcases bind_eq_error.mp h with hmerge | ⟨merged, -, h⟩
      · refine .relative hagree (.owner hparents ?_) hmerge
        rw [hlink]
        exact Option.some_ne_none _
      · cases h

/-- An analysis is stopped where there is no table, or for one of the reasons above. -/
theorem stops_of_analyze {name : String} {fault : Fault}
    (h : analyze m name settings = .error fault) :
    NoTable m name fault ∨ ∃ db, EndsIn m name db ∧ Stops m settings db fault := by
  rcases table_cases h with hlost | ⟨requested, db, hrequested, hdb, h⟩
  · exact .inl hlost
  · refine .inr ⟨db, ⟨requested, hrequested, hdb⟩, ?_⟩
    rcases bind_eq_error.mp h with hmerge | ⟨merged, hmerged, h⟩
    · exact .conflict hmerge
    · rcases bind_eq_error.mp h with hfindings | ⟨findings, -, h⟩
      · obtain ⟨element, helement, hexamine⟩ := exists_of_mapM_eq_error hfindings
        exact stops_of_examine hmerged helement hexamine
      · rcases bind_eq_error.mp h with hbinding | ⟨⟨binding, warnings⟩, -, h⟩
        · exact stops_of_rootBinding (sourcesAgree_of_mergeDirectives hmerged) hbinding
        · dsimp only at h
          split at h
          · rename_i hkey
            cases h
            exact .keyless (List.isEmpty_iff.mp (Bool.and_eq_true_iff.mp hkey).1)
          · cases h

/-! ## Conflicts -/

/-- A conflict that stops an analysis is one of the entity, or else of a relative of an entity
whose own sources agree. -/
theorem differ_of_stops {db : Entity} (hdb : m.get? db.name = some db)
    {entity label first a second b : String}
    (h : Stops m settings db (.conflictingDirectives entity label first a second b)) :
    ∃ e, m.get? entity = some e ∧ SourcesDiffer m e label ∧
      (e = db ∨ SourcesAgree m db ∧ Consults m db e) := by
  have hdiffer {e : Entity} (hmerge : mergeDirectives m e =
      .error (.conflictingDirectives entity label first a second b)) :
      entity = e.name ∧ SourcesDiffer m e label := by
    obtain ⟨_, _, _, _, _, hdiffer, hfault⟩ := conflict_of_mergeDirectives hmerge
    cases hfault
    exact ⟨rfl, hdiffer⟩
  -- Children that are lost have faults of their own; only merging finds sources that differ.
  cases h with
  | conflict hmerge =>
      obtain ⟨hname, hslot⟩ := hdiffer hmerge
      exact ⟨db, hname ▸ hdb, hslot, .inl rfl⟩
  | lostChildren hcollects hlost =>
      rcases hlost.cases with ⟨_, hfault⟩ | ⟨_, _, hfault⟩
      · cases hfault
      · cases hfault
  | relative hagree he hmerge =>
      obtain ⟨hname, hslot⟩ := hdiffer hmerge
      exact ⟨_, hname ▸ he.registered, hslot, .inr ⟨hagree, he⟩⟩

/-- Sources of an entity that differ stop its analysis, by a conflict of the entity.  Every other
conflict that stops it is one of a relative that it consults, at a slot where sources of that
relative differ. -/
theorem conflict_of_analyze (m : Model) (settings : Settings) (name : String) :
    (∀ db, EndsIn m name db → ¬ SourcesAgree m db → ∃ label first a second b,
      analyze m name settings =
        .error (.conflictingDirectives db.name label first a second b)) ∧
    ∀ entity label first a second b,
      analyze m name settings = .error (.conflictingDirectives entity label first a second b) →
        ∃ db e, EndsIn m name db ∧ m.get? entity = some e ∧ SourcesDiffer m e label ∧
          (e = db ∨ SourcesAgree m db ∧ Consults m db e) := by
  constructor
  · rintro db ⟨requested, hrequested, hdb⟩ hdisagree
    cases hmerge : mergeDirectives m db with
    | ok merged => exact absurd (sourcesAgree_of_mergeDirectives hmerge) hdisagree
    | error fault =>
        obtain ⟨label, first, a, second, b, -, rfl⟩ := conflict_of_mergeDirectives hmerge
        refine ⟨label, first, a, second, b, ?_⟩
        -- The directives of the entity are merged before anything else is looked at.
        rw [analyze, Model.entity_eq_ok_iff.mpr hrequested]
        refine bind_eq_error.mpr (.inr ⟨requested, rfl, bind_eq_error.mpr (.inr ⟨db, hdb, ?_⟩)⟩)
        exact bind_eq_error.mpr (.inl hmerge)
  · intro entity label first a second b h
    rcases stops_of_analyze h with hlost | ⟨db, hdb, hstops⟩
    · rcases hlost.cases with ⟨_, hfault⟩ | ⟨_, _, hfault⟩
      · cases hfault
      · cases hfault
    · obtain ⟨e, he, hdiffer, hrelative⟩ := differ_of_stops hdb.registered hstops
      exact ⟨db, e, hdb, he, hdiffer, hrelative⟩

/-! ### Contested orders -/

namespace Contested

/-- Carts that collect orders, without paths to tell them apart. -/
def carts : Entity where
  name := "shop.Carts"
  elements := [
    { name := "ID", isKey := true },
    { name := "orders", type := "cds.Composition"
      association := some {
        kind := .composition, target := "shop.Orders", many := true, on := [⟨"cart_ID", "ID"⟩] }
      directive := some (.marker true) }]

/-- Items of an order, with a tracked amount. -/
def items : Entity where
  name := "shop.Items"
  elements := [
    { name := "ID", isKey := true },
    { name := "order", type := "cds.Association"
      association := some { kind := .reference, target := "shop.Orders", keys := ["ID"] } },
    { name := "amount", directive := some (.marker true) }]

/-- The reference to the customer of an order, shown by the path. -/
def customer (path : String) : Element where
  name := "customer"
  type := "cds.Association"
  association := some { kind := .reference, target := "shop.Customers", keys := ["ID"] }
  directive := some (.paths [path])

def customers : Entity where
  name := "shop.Customers"
  elements := [{ name := "ID", isKey := true }, { name := "name" }, { name := "email" }]

/-- Orders that are identified by their number, and show the name of the customer. -/
def orders : Entity where
  name := "shop.Orders"
  elements := [
    { name := "ID", isKey := true }, { name := "orderNo" }, customer "customer.name",
    { name := "cart", type := "cds.Association"
      association := some { kind := .reference, target := "shop.Carts", keys := ["ID"] } },
    { name := "items", type := "cds.Composition"
      association := some {
        kind := .composition, target := "shop.Items", many := true, on := [⟨"order_ID", "ID"⟩] } }]
  directive := some (.paths ["orderNo"])

/-- The orders in a service that shows the mail address of the customer. -/
def listedOrders : Entity where
  name := "AdminService.Orders"
  elements := [{ name := "ID", isKey := true }, customer "customer.email"]
  projectionOf := some "shop.Orders"

def model : Model where
  entities := NameMap.ofList
    ([listedOrders, carts, customers, items, orders].map fun entity => (entity.name, entity))
  checked := by decide

/-- The conflict at the customer of the orders. -/
def orderConflict : Fault :=
  .conflictingDirectives "shop.Orders" "customer" "shop.Orders" "customer.name"
    "AdminService.Orders" "customer.email"

theorem analyze_eq_orderConflict :
    ∀ name ∈ ["AdminService.Orders", "shop.Carts", "shop.Items"],
      analyze model name {} = .error orderConflict := by
  decide +kernel

theorem endsIn_orders : EndsIn model "AdminService.Orders" orders :=
  ⟨listedOrders, by decide +kernel, by decide +kernel⟩

theorem endsIn_carts : EndsIn model "shop.Carts" carts :=
  ⟨carts, by decide +kernel, by decide +kernel⟩

theorem endsIn_items : EndsIn model "shop.Items" items :=
  ⟨items, by decide +kernel, by decide +kernel⟩

/-- Orders, carts and items are stopped by the conflict of the orders. -/
theorem conflict_of_orders :
    (∃ label first a second b, analyze model "AdminService.Orders" {} =
      .error (.conflictingDirectives orders.name label first a second b)) ∧
    ∀ name ∈ ["AdminService.Orders", "shop.Carts", "shop.Items"],
      ∃ db e, EndsIn model name db ∧ model.get? "shop.Orders" = some e ∧
        SourcesDiffer model e "customer" ∧
          (e = db ∨ SourcesAgree model db ∧ Consults model db e) := by
  constructor
  · have hdiffer : ¬ SourcesAgree model orders := by
      intro hagree
      have heq := hagree (.element "customer") ["customer.name"] ["customer.email"]
        ⟨orders, List.mem_cons_self, .inr ⟨customer "customer.name", by decide, rfl, rfl, rfl⟩⟩
        ⟨listedOrders, by decide +kernel,
          .inr ⟨customer "customer.email", by decide, rfl, rfl, rfl⟩⟩
      simp at heq
    exact (conflict_of_analyze model {} _).1 orders endsIn_orders hdiffer
  · intro name hname
    exact (conflict_of_analyze model {} name).2 _ _ _ _ _ _ (analyze_eq_orderConflict name hname)

/-- Carts and items are stopped by a conflict of the orders that they collect or belong to, though
their own sources agree. -/
theorem conflict_of_relative :
    (analyze model "shop.Carts" {} = .error orderConflict ∧ EndsIn model "shop.Carts" carts ∧
      SourcesAgree model carts ∧ carts.name ≠ orders.name) ∧
    (analyze model "shop.Items" {} = .error orderConflict ∧ EndsIn model "shop.Items" items ∧
      SourcesAgree model items ∧ items.name ≠ orders.name) := by
  have hcarts : mergeDirectives model carts =
      .ok ⟨none, NameMap.ofList [("orders", ⟨.marker true, "shop.Carts"⟩)], none⟩ := by
    decide +kernel
  have hitems : mergeDirectives model items =
      .ok ⟨none, NameMap.ofList [("amount", ⟨.marker true, "shop.Items"⟩)], none⟩ := by
    decide +kernel
  refine ⟨⟨analyze_eq_orderConflict _ (by decide), endsIn_carts, ?_, by decide⟩,
    analyze_eq_orderConflict _ (by decide), endsIn_items, ?_, by decide⟩
  · exact sourcesAgree_of_mergeDirectives hcarts
  · exact sourcesAgree_of_mergeDirectives hitems

end Contested

end ChangeTracking.Tracking
