import Mathlib.Control.Monad.Basic
import ChangeTracking.Proofs.Tracking.Conflicts

/-!
# Omissions

An analysis leaves out what it cannot resolve, and says so in a warning: paths that lead
nowhere, associations without columns, owners without a link, keys without columns.  Only the
children of a collection must have a table.
-/

namespace ChangeTracking.Tracking

open Schema (Association Element Entity Model Route)

variable {m : Model} {settings : Settings}

/-! ## Reports -/

/-- A warning is about this place. -/
def Reported (warnings : List Warning) (entity : String) (element path : Option String) : Prop :=
  ∃ reason, ⟨entity, element, path, reason⟩ ∈ warnings

/-- Each path that leads somewhere is kept, and each one that does not is reported with the
reason. -/
def KeepsOrReports (m : Model) (start : Entity) (element : Option String)
    (kept : String → Route → Prop) (warnings : List Warning) (paths : List String) : Prop :=
  ∀ path ∈ paths,
    (∃ route, m.route start path = .ok route ∧ kept path route) ∨
      ∃ deadEnd, m.route start path = .error deadEnd ∧
        ⟨start.name, element, some path, deadEnd.message⟩ ∈ warnings

/-- The identifier reads what the path leads to. -/
def Identifies (identity : List IdentityField) (path : String) (route : Route) : Prop :=
  ⟨path, route.isOnRow⟩ ∈ identity

/-- The columns of each key element are in the key, and a key element without columns is
reported. -/
def KeepsOrReportsKeys (db : Entity) (key : List String) (warnings : List Warning) : Prop :=
  ∀ element ∈ db.keyElements, (∀ column ∈ keyColumns element, column ∈ key) ∧
    (keyColumns element = [] → Reported warnings db.name (some element.name) none)

section Reports

variable {warnings warnings' : List Warning} (hwarnings : ∀ w ∈ warnings, w ∈ warnings')
include hwarnings

theorem Reported.mono {entity : String} {element path : Option String}
    (h : Reported warnings entity element path) : Reported warnings' entity element path := by
  obtain ⟨reason, hmem⟩ := h
  exact ⟨reason, hwarnings _ hmem⟩

theorem KeepsOrReports.mono {start : Entity} {element : Option String}
    {kept : String → Route → Prop} {paths : List String}
    (h : KeepsOrReports m start element kept warnings paths) :
    KeepsOrReports m start element kept warnings' paths := by
  intro path hpath
  rcases h path hpath with hkept | ⟨deadEnd, hroute, hmem⟩
  · exact .inl hkept
  · exact .inr ⟨deadEnd, hroute, hwarnings _ hmem⟩

theorem KeepsOrReportsKeys.mono {db : Entity} {key : List String}
    (h : KeepsOrReportsKeys db key warnings) : KeepsOrReportsKeys db key warnings' :=
  fun element helement =>
    ⟨(h element helement).1, fun hnil => ((h element helement).2 hnil).mono hwarnings⟩

end Reports

theorem mem_pathWarnings {start : Entity} {element : Option String} {paths : List String}
    {path : String} (hpath : path ∈ paths) {deadEnd : Schema.DeadEnd}
    (h : m.route start path = .error deadEnd) :
    ⟨start.name, element, some path, deadEnd.message⟩ ∈ pathWarnings m start element paths :=
  List.mem_filterMap.mpr ⟨path, hpath, by rw [h]⟩

/-- The paths of an identifier are kept or reported. -/
theorem keepsOrReports_identity (m : Model) (start : Entity) (element : Option String)
    (paths : List String) :
    KeepsOrReports m start element (Identifies (identityFields m start paths))
      (pathWarnings m start element paths) paths := by
  intro path hpath
  cases hroute : m.route start path with
  | ok route => exact .inl ⟨route, rfl, List.mem_filterMap.mpr ⟨path, hpath, by rw [hroute]⟩⟩
  | error deadEnd => exact .inr ⟨deadEnd, rfl, mem_pathWarnings hpath hroute⟩

/-- The label paths of an association are kept or reported. -/
theorem keepsOrReports_labels (m : Model) (db : Entity) (element : Element)
    (association : Association) (paths : List String) :
    KeepsOrReports m db (some element.name)
      (fun path _ => path ∈ (relationAttribute m db element association paths).labelPaths)
      (pathWarnings m db (some element.name) paths) paths := by
  intro path hpath
  cases hroute : m.route db path with
  | ok route =>
      exact .inl ⟨route, rfl, List.mem_filter.mpr ⟨hpath, by rw [resolves, hroute]; rfl⟩⟩
  | error deadEnd => exact .inr ⟨deadEnd, rfl, mem_pathWarnings hpath hroute⟩

theorem keepsOrReportsKeys_primaryKey (db : Entity) :
    KeepsOrReportsKeys db (primaryKey db) (primaryKeyWarnings db) := by
  intro element helement
  refine ⟨fun column hcolumn => List.mem_flatMap.mpr ⟨element, helement, hcolumn⟩, fun hnil => ?_⟩
  refine ⟨_, List.mem_map.mpr ⟨element, List.mem_filter.mpr ⟨helement, ?_⟩, rfl⟩⟩
  rw [hnil]
  rfl

/-- The paths of a collection begin at its element, or are reported. -/
theorem reported_foreignPath (db : Entity) (element : Element) {paths : List String} {path : String}
    (hpath : path ∈ paths) : (Text.after? (element.name ++ ".") path).isSome = true ∨
      Reported (foreignPathWarnings db element paths) db.name (some element.name) (some path) := by
  cases hafter : Text.after? (element.name ++ ".") path with
  | some rest => exact .inl rfl
  | none =>
      refine .inr ⟨_, List.mem_map.mpr ⟨path, List.mem_filter.mpr ⟨hpath, ?_⟩, rfl⟩⟩
      rw [hafter]
      rfl

/-! ## Elements -/

/-- There is no value of the element that may be recorded with the row. -/
def Untrackable (element : Element) : Prop :=
  element.isPersonal = true ∨ element.isVirtual = true ∨
    ∃ association, element.association = some association ∧
      (association.many = true ∨ element.foreignKeyColumns = [] ∧ onPairs element = [])

/-- The collection of children, with everything that it lacks reported. -/
structure CollectionReported (m : Model) (db : Entity) (element : Element) (child : Entity)
    (paths : List String) (c : Collection) (warnings : List Warning) : Prop where
  element_eq : c.element = element.name
  target_eq : c.target = child.name
  foreign : ∀ path ∈ paths, (Text.after? (element.name ++ ".") path).isSome = true ∨
    Reported warnings db.name (some element.name) (some path)
  identity : ∃ identifying, childPaths m child (relativePaths element paths) = .ok identifying ∧
    KeepsOrReports m child none (Identifies c.identity) warnings identifying
  link : c.link = rootLink child db ∧
    (c.link = none → Reported warnings db.name (some element.name) none)
  keys : KeepsOrReportsKeys child c.targetKeys warnings

/-- What becomes of an element that is to be tracked with these paths. -/
inductive Outcome (m : Model) (db : Entity) (element : Element) (paths : List String)
    (attributes : List Attribute) (collections : List Collection) (warnings : List Warning) : Prop
  /-- It is a column of an association. -/
  | shadow (h : element.foreignKeyOf.isSome = true)
  /-- It is tracked by its own value. -/
  | plain (hassociation : element.association = none) (hmem : plainAttribute element ∈ attributes)
  /-- It is tracked as an association, by the labels that can be resolved. -/
  | related {tracked : Attribute} (hmem : tracked ∈ attributes)
      (hname : tracked.name = element.name)
      (hlabels : KeepsOrReports m db (some element.name) (fun path _ => path ∈ tracked.labelPaths)
        warnings paths)
  /-- It is tracked as a collection. -/
  | collected {association : Association} {child : Entity} {c : Collection}
      (hassociation : element.association = some association)
      (hchild : EndsIn m association.target child) (hmem : c ∈ collections)
      (hreported : CollectionReported m db element child paths c warnings)
  /-- It is left out, and reported. -/
  | refused (h : Untrackable element) (hreport : Reported warnings db.name (some element.name) none)

theorem CollectionReported.mono {db child : Entity} {element : Element} {paths : List String}
    {c : Collection} {warnings warnings' : List Warning}
    (h : CollectionReported m db element child paths c warnings)
    (hwarnings : ∀ w ∈ warnings, w ∈ warnings') :
    CollectionReported m db element child paths c warnings' where
  element_eq := h.element_eq
  target_eq := h.target_eq
  foreign path hpath := (h.foreign path hpath).imp_right (·.mono hwarnings)
  identity := by
    obtain ⟨identifying, hpaths, hidentity⟩ := h.identity
    exact ⟨identifying, hpaths, hidentity.mono hwarnings⟩
  link := ⟨h.link.1, fun hnone => (h.link.2 hnone).mono hwarnings⟩
  keys := h.keys.mono hwarnings

theorem Outcome.mono {db : Entity} {element : Element} {paths : List String}
    {attributes attributes' : List Attribute} {collections collections' : List Collection}
    {warnings warnings' : List Warning}
    (h : Outcome m db element paths attributes collections warnings)
    (hattributes : ∀ x ∈ attributes, x ∈ attributes')
    (hcollections : ∀ x ∈ collections, x ∈ collections')
    (hwarnings : ∀ x ∈ warnings, x ∈ warnings') :
    Outcome m db element paths attributes' collections' warnings' := by
  cases h with
  | shadow h => exact .shadow h
  | plain hassociation hmem => exact .plain hassociation (hattributes _ hmem)
  | related hmem hname hlabels => exact .related (hattributes _ hmem) hname (hlabels.mono hwarnings)
  | collected hassociation hchild hmem hreported =>
      exact .collected hassociation hchild (hcollections _ hmem) (hreported.mono hwarnings)
  | refused h hreport => exact .refused h (hreport.mono hwarnings)

/-- What becomes of an element by one finding. -/
def Finding.Accounts (m : Model) (db : Entity) (element : Element) (paths : List String)
    (finding : Finding × List Warning) : Prop :=
  Outcome m db element paths finding.1.attribute?.toList finding.1.collection?.toList finding.2

theorem untrackable_of_refused {element : Element} (hown : element.foreignKeyOf = none)
    (h : isTrackable element = false) : Untrackable element := by
  rw [Bool.eq_false_iff, ne_eq, isTrackable_iff] at h
  by_contra hnot
  simp only [Untrackable, not_or, not_exists, not_and, Bool.not_eq_true] at hnot
  obtain ⟨hpersonal, hvirtual, hassociation⟩ := hnot
  refine h ⟨hown, hpersonal, hvirtual, fun association hsome => ?_⟩
  obtain ⟨hmany, hcolumns⟩ := hassociation association hsome
  exact ⟨hmany, Decidable.or_iff_not_imp_left.mpr fun hnil => hcolumns (not_not.mp hnil)⟩

theorem accounts_examineAttribute (m : Model) (db : Entity) (element : Element)
    (directive : Schema.Directive) :
    Finding.Accounts m db element directive.pathList (examineAttribute m db element directive) := by
  have hexamined := examinedAttribute m db element directive
  generalize examineAttribute m db element directive = found at hexamined ⊢
  obtain ⟨finding, warnings⟩ := found
  cases hexamined with
  | shadow hshadow => exact .shadow hshadow
  | refused hown htrackable =>
      exact .refused (untrackable_of_refused hown htrackable) ⟨_, List.mem_cons_self⟩
  | plain htrackable hassociation => exact .plain hassociation List.mem_cons_self
  | related htrackable hassociation =>
      exact .related List.mem_cons_self rfl (keepsOrReports_labels m db element _ _)

theorem accounts_examineCollection {db : Entity} {element : Element} {association : Association}
    {directive : Schema.Directive} {finding : Finding × List Warning}
    (hassociation : element.association = some association)
    (h : examineCollection m db element association directive = .ok finding) :
    Finding.Accounts m db element directive.pathList finding := by
  rw [examineCollection, bind_eq_ok] at h
  obtain ⟨next, hnext, h⟩ := h
  obtain ⟨child, hchild, h⟩ := bind_eq_ok.mp h
  obtain ⟨paths, hpaths, h⟩ := bind_eq_ok.mp h
  cases h
  refine .collected hassociation ⟨next, Model.entity_eq_ok_iff.mp hnext, hchild⟩ List.mem_cons_self
    ⟨rfl, rfl, ?_, ⟨paths, hpaths, ?_⟩, ⟨rfl, ?_⟩, ?_⟩
  · intro path hpath
    refine (reported_foreignPath db element hpath).imp_right (·.mono fun w hw => ?_)
    simp only [List.mem_append]
    exact .inl (.inl (.inl hw))
  · refine (keepsOrReports_identity m child none paths).mono fun w hw => ?_
    simp only [List.mem_append]
    exact .inl (.inl (.inr hw))
  · intro hnone
    have hnone : rootLink child db = none := hnone
    refine ⟨"no link from " ++ child.name ++ " back to " ++ db.name, ?_⟩
    simp only [hnone, Option.isSome_none, Bool.false_eq_true, if_false, List.mem_append,
      List.mem_singleton, or_true, true_or]
  · refine (keepsOrReportsKeys_primaryKey child).mono fun w hw => ?_
    simp only [List.mem_append]
    exact .inr hw

/-- An element that is asked for is accounted for by what is found. -/
theorem accounts_examine {db : Entity} {merged : Merged} {element : Element} {declared : Declared}
    (hdeclared : merged.elements.get? element.name = some declared)
    (henabled : declared.directive.isEnabled = true) {finding : Finding × List Warning}
    (h : examine m db merged element = .ok finding) :
    Finding.Accounts m db element declared.directive.pathList finding := by
  rw [examine, hdeclared] at h
  simp only [henabled, Bool.not_true, Bool.false_eq_true, if_false] at h
  split at h
  · rename_i association hassociation
    split at h
    · exact accounts_examineCollection hassociation h
    · cases h
      exact accounts_examineAttribute m db element declared.directive
  · cases h
    exact accounts_examineAttribute m db element declared.directive

/-! ## Owners -/

/-- What becomes of the link of an entity to its owner. -/
inductive Bound (m : Model) (db : Entity) (warnings : List Warning) : Option RootBinding → Prop
  /-- Nothing owns the records. -/
  | ownerless (hparents : m.compositionParents db.name = []) : Bound m db warnings none
  /-- There is no link to the owner, which is reported. -/
  | unlinked {root : Entity} {element : Element} {rest : List (Entity × Element)}
      (hparents : m.compositionParents db.name = (root, element) :: rest)
      (hlink : rootLink db root = none) (hreport : Reported warnings db.name none none) :
      Bound m db warnings none
  /-- The records are bound to their first owner, by the paths of it that can be resolved. -/
  | linked {root : Entity} {element : Element} {rest : List (Entity × Element)} {link : RootLink}
      {merged : Merged} {identity : List IdentityField}
      (hparents : m.compositionParents db.name = (root, element) :: rest)
      (hlink : rootLink db root = some link) (hmerged : mergeDirectives m root = .ok merged)
      (hidentity : KeepsOrReports m root none (Identifies identity) warnings
        (annotatedPaths merged.entity)) :
      Bound m db warnings (some ⟨root.name, link, identity⟩)

theorem bound_of_rootBinding {db : Entity} {binding : Option RootBinding} {warnings : List Warning}
    (h : rootBinding m db settings = .ok (binding, warnings)) : Bound m db warnings binding := by
  cases rooted_of_rootBinding h with
  | ownerless hparents => exact .ownerless hparents
  | unlinked hparents hlink => exact .unlinked hparents hlink ⟨_, List.mem_cons_self⟩
  | linked hparents hlink hmerged =>
      exact .linked hparents hlink hmerged (keepsOrReports_identity m _ none _)

theorem Bound.mono {db : Entity} {warnings warnings' : List Warning} {binding : Option RootBinding}
    (h : Bound m db warnings binding) (hwarnings : ∀ w ∈ warnings, w ∈ warnings') :
    Bound m db warnings' binding := by
  cases h with
  | ownerless hparents => exact .ownerless hparents
  | unlinked hparents hlink hreport => exact .unlinked hparents hlink (hreport.mono hwarnings)
  | linked hparents hlink hmerged hidentity =>
      exact .linked hparents hlink hmerged (hidentity.mono hwarnings)

/-! ## Entities -/

/-- Everything that the analysis of an entity was asked for is in the descriptor, or reported. -/
structure Accounted (m : Model) (db : Entity) (a : Analysis) : Prop where
  entity : a.descriptor.entity = db.name
  keys : KeepsOrReportsKeys db a.descriptor.primaryKey a.warnings
  identity : ∃ merged, mergeDirectives m db = .ok merged ∧
    KeepsOrReports m db none (Identifies a.descriptor.identity) a.warnings
      (annotatedPaths merged.entity)
  elements : ∀ element ∈ db.elements, ∀ declared, Asks m db element declared →
    Outcome m db element declared.directive.pathList a.descriptor.attributes
      a.descriptor.collections a.warnings
  owner : Bound m db a.warnings a.descriptor.binding

theorem accounted_of_analyze {name : String} {db : Entity} (hdb : EndsIn m name db) {a : Analysis}
    (h : analyze m name settings = .ok a) : Accounted m db a := by
  obtain ⟨requested, hrequested, howner⟩ := hdb
  obtain ⟨requested', db', merged, findings, binding, warnings, hrequested', howner', hmerged,
    hfindings, hbinding, -, rfl⟩ := eq_of_analyze h
  cases hrequested.symm.trans hrequested'
  cases howner.symm.trans howner'
  -- The warnings are those of the keys, of the elements, of the identifier and of the owner, one
  -- behind the other.
  constructor
  case entity => rfl
  case keys =>
    refine (keepsOrReportsKeys_primaryKey db).mono fun w hw => ?_
    simp only [List.mem_append]
    exact .inl (.inl (.inl hw))
  case identity =>
    refine ⟨merged, hmerged, (keepsOrReports_identity m db none _).mono fun w hw => ?_⟩
    simp only [List.mem_append]
    exact .inl (.inr hw)
  case elements =>
    rintro element helement declared ⟨⟨merged', hmerged', hdeclared⟩, henabled⟩
    cases hmerged.symm.trans hmerged'
    obtain ⟨finding, hfinding, hexamine⟩ := exists_mem_of_mapM hfindings helement
    refine (accounts_examine hdeclared henabled hexamine).mono ?_ ?_ ?_
    · exact fun tracked htracked =>
        List.mem_filterMap.mpr ⟨finding, hfinding, Option.mem_toList.mp htracked⟩
    · exact fun c hc => List.mem_filterMap.mpr ⟨finding, hfinding, Option.mem_toList.mp hc⟩
    · intro w hw
      simp only [List.mem_append]
      exact .inl (.inl (.inr (List.mem_flatMap.mpr ⟨finding, hfinding, hw⟩)))
  case owner =>
    refine (bound_of_rootBinding hbinding).mono fun w hw => ?_
    simp only [List.mem_append]
    exact .inr hw

/-- The children of all collections of an analyzed entity have a table. -/
theorem endsIn_of_collects {name : String} {db : Entity} (hdb : EndsIn m name db) {a : Analysis}
    (h : analyze m name settings = .ok a) {element : Element} {association : Association}
    {declared : Declared} (hcollects : Collects m db element association declared) :
    ∃ child, EndsIn m association.target child := by
  obtain ⟨requested, hrequested, howner⟩ := hdb
  obtain ⟨requested', db', merged, findings, _, _, hrequested', howner', hmerged, hfindings, -⟩ :=
    eq_of_analyze h
  cases hrequested.symm.trans hrequested'
  cases howner.symm.trans howner'
  obtain ⟨merged', hmerged', hdeclared⟩ := hcollects.declared_eq
  cases hmerged.symm.trans hmerged'
  obtain ⟨finding, -, hexamine⟩ := exists_mem_of_mapM hfindings hcollects.element_mem
  rw [examine, hdeclared] at hexamine
  simp only [hcollects.enabled, hcollects.association_eq, hcollects.ofMany, Bool.not_true,
    Bool.false_eq_true, if_false, if_true] at hexamine
  rw [examineCollection, bind_eq_ok] at hexamine
  obtain ⟨next, hnext, hexamine⟩ := hexamine
  obtain ⟨child, hchild, -⟩ := bind_eq_ok.mp hexamine
  exact ⟨child, next, Model.entity_eq_ok_iff.mp hnext, hchild⟩

/-- An entity with a key, whose sources agree like those of the relatives that it consults, is
analyzed exactly if the children of its collections have tables, whatever else is missing from the
model.  Everything that it asks for and that cannot be resolved is reported. -/
theorem analyze_iff_children {name : String} {db : Entity} (hdb : EndsIn m name db)
    (hlax : settings.strictRootBinding = false) (hagree : SourcesAgree m db)
    (hrelatives : ∀ e, Consults m db e → SourcesAgree m e) (hkey : primaryKey db ≠ []) :
    ((∃ a, analyze m name settings = .ok a) ↔
      ∀ element association declared, Collects m db element association declared →
        ∃ child, EndsIn m association.target child) ∧
    (∀ fault, analyze m name settings = .error fault →
      ∃ element association declared, Collects m db element association declared ∧
        NoTable m association.target fault) ∧
    ∀ a, analyze m name settings = .ok a → Accounted m db a := by
  have hfault : ∀ fault, analyze m name settings = .error fault →
      ∃ element association declared, Collects m db element association declared ∧
        NoTable m association.target fault := by
    intro fault h
    rcases stops_of_analyze h with hlost | ⟨db', hdb', hstops⟩
    · exact absurd hlost hdb.not_noTable
    · cases hdb.unique hdb'
      -- Of what stops an analysis, all but the lost children are excluded by a hypothesis.
      cases hstops with
      | conflict hmerge =>
          obtain ⟨merged, hmerged⟩ := exists_mergeDirectives hagree
          rw [hmerged] at hmerge
          cases hmerge
      | lostChildren hcollects hlost => exact ⟨_, _, _, hcollects, hlost⟩
      | relative _ he hmerge =>
          obtain ⟨merged, hmerged⟩ := exists_mergeDirectives (hrelatives _ he)
          rw [hmerged] at hmerge
          cases hmerge
      | unbound hstrict =>
          rw [hlax] at hstrict
          cases hstrict
      | keyless hnil => exact absurd hnil hkey
  refine ⟨⟨?_, ?_⟩, hfault, fun a h => accounted_of_analyze hdb h⟩
  · rintro ⟨a, h⟩ element association declared hcollects
    exact endsIn_of_collects hdb h hcollects
  · intro hchildren
    cases h : analyze m name settings with
    | ok a => exact ⟨a, rfl⟩
    | error fault =>
        obtain ⟨element, association, declared, hcollects, hlost⟩ := hfault fault h
        obtain ⟨child, hchild⟩ := hchildren element association declared hcollects
        exact absurd hlost hchild.not_noTable

/-! ### An incomplete model -/

namespace Incomplete

/-- Orders of customers that are not in the model, with items that are. -/
def orders : Entity where
  name := "shop.Orders"
  elements := [
    { name := "ID", isKey := true }, { name := "orderNo" },
    { name := "customer", type := "cds.Association"
      association := some { kind := .reference, target := "shop.Customers", keys := ["ID"] }
      directive := some (.paths ["customer.ID", "customer.name"]) },
    { name := "items", type := "cds.Composition"
      association := some {
        kind := .composition, target := "shop.Items", many := true, on := [⟨"order_ID", "ID"⟩] }
      directive := some (.marker true) }]
  directive := some (.paths ["orderNo", "remark"])

/-- Items of an order, for products that are not in the model. -/
def items : Entity where
  name := "shop.Items"
  elements := [
    { name := "ID", isKey := true },
    { name := "order", type := "cds.Association"
      association := some { kind := .reference, target := "shop.Orders", keys := ["ID"] } },
    { name := "product", type := "cds.Association"
      association := some { kind := .reference, target := "shop.Products", keys := ["ID"] } }]
  directive := some (.paths ["product.name"])

/-- Lists with a title, of entries that are not in the model. -/
def lists : Entity where
  name := "shop.Lists"
  elements := [
    { name := "ID", isKey := true }, { name := "title", directive := some (.marker true) },
    { name := "entries", type := "cds.Composition"
      association := some {
        kind := .composition, target := "shop.Entries", many := true, on := [⟨"list_ID", "ID"⟩] }
      directive := some (.marker true) }]

def model : Model where
  entities := NameMap.ofList ([items, lists, orders].map fun entity => (entity.name, entity))
  checked := by decide

theorem sourcesAgree {e : Entity} (h : model.get? e.name = some e) : SourcesAgree model e := by
  have hall : ∀ e ∈ model.all, (mergeDirectives model e).isOk = true := by decide +kernel
  have hok := hall e (Model.mem_all_of_get? h)
  cases hmerge : mergeDirectives model e with
  | ok merged => exact sourcesAgree_of_mergeDirectives hmerge
  | error fault =>
      rw [hmerge] at hok
      cases hok

theorem endsIn_orders : EndsIn model "shop.Orders" orders :=
  ⟨orders, by decide +kernel, by decide +kernel⟩

theorem endsIn_lists : EndsIn model "shop.Lists" lists :=
  ⟨lists, by decide +kernel, by decide +kernel⟩

theorem warnings_orders : (analyze model "shop.Orders" {}).map (·.warnings) = .ok [
    ⟨"shop.Orders", some "customer", some "customer.name",
      "target 'shop.Customers' of 'customer' is not in the model"⟩,
    ⟨"shop.Items", none, some "product.name",
      "target 'shop.Products' of 'product' is not in the model"⟩,
    ⟨"shop.Orders", none, some "remark", "'remark' is not an element of shop.Orders"⟩] := by
  decide +kernel

/-- Orders are analyzed without the names of their customers and of the products of their items. -/
theorem accounted_orders : ∃ a, analyze model "shop.Orders" {} = .ok a ∧ Accounted model orders a ∧
    a.warnings.length = 3 := by
  obtain ⟨a, ha, hwarnings⟩ := map_eq_ok.mp warnings_orders
  have hkey : primaryKey orders ≠ [] := by decide
  have hreported := (analyze_iff_children endsIn_orders rfl (sourcesAgree endsIn_orders.registered)
    (fun _ he => sourcesAgree he.registered) hkey).2.2 a ha
  exact ⟨a, ha, hreported, by rw [hwarnings]; rfl⟩

/-- The missing entries stop the analysis of the lists. -/
theorem analyze_lists : EndsIn model "shop.Lists" lists ∧ SourcesAgree model lists ∧
    (∀ e, Consults model lists e → SourcesAgree model e) ∧ primaryKey lists = ["ID"] ∧
    analyze model "shop.Lists" {} = .error (.unknownEntity "shop.Entries") :=
  ⟨endsIn_lists, sourcesAgree endsIn_lists.registered, fun _ he => sourcesAgree he.registered,
    by decide, by decide +kernel⟩

end Incomplete

end ChangeTracking.Tracking
