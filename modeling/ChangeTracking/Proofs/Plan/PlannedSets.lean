import ChangeTracking.Plan.Planning
import ChangeTracking.Proofs.Schema.Registered

/-!
# The sets that planning yields

Planning collects the sets of an entity from several steps, each of which may fail.  A
set of the result was yielded by one of the steps: it is the entity's own set, or the set
of one of the tracked collections.
-/

namespace ChangeTracking.Plan

open Schema (Entity Model)
open Tracking (Collection Descriptor IdentityField RootLink)

/-! ## Planned sets -/

/-- A planned set is the entity's own set or that of one of its collections. -/
theorem mem_planAll {m : Model} {d : Descriptor} {settings : Settings}
    {sets : List TriggerSet} (h : planAll m d settings = .ok sets) {set : TriggerSet}
    (hset : set ∈ sets) :
    planEntity m d settings = .ok (some set) ∨
      ∃ c ∈ d.collections, planCollection m d settings c = .ok set := by
  rw [planAll, bind_eq_ok] at h
  obtain ⟨own, hown, h⟩ := h
  obtain ⟨collections, hcollections, h⟩ := bind_eq_ok.mp h
  cases h
  rcases List.mem_append.mp hset with hset | hset
  · left
    rw [hown, Option.mem_toList.mp hset]
  · right
    exact exists_of_mem_mapM hcollections hset

/-- The own set of an entity is one of its planned sets. -/
theorem mem_planAll_of_planEntity {m : Model} {d : Descriptor} {settings : Settings}
    {sets : List TriggerSet} (h : planAll m d settings = .ok sets) {set : TriggerSet}
    (hown : planEntity m d settings = .ok (some set)) : set ∈ sets := by
  rw [planAll, hown, bind_eq_ok] at h
  obtain ⟨own, hsome, h⟩ := h
  obtain ⟨collections, -, h⟩ := bind_eq_ok.mp h
  cases hsome
  cases h
  exact List.mem_cons_self

/-- The own set of an entity with attributes, as it is planned. -/
theorem eq_of_planEntity {m : Model} {d : Descriptor} {settings : Settings} {set : TriggerSet}
    (h : planEntity m d settings = .ok (some set)) :
    d.attributes ≠ [] ∧ ∃ entity owner, m.entity d.entity = .ok entity ∧
      (d.binding.mapM fun binding =>
        Plan.owner m d.entity d.primaryKey binding.root binding.link binding.identity) =
          .ok owner ∧
      set = {
        entity := d.entity
        collection := none
        service := d.service
        primaryKey := d.primaryKey
        key := encodeKey d.primaryKey .subject
        identifier := identifier m entity d.identity d.primaryKey (.row .subject)
        owner := owner
        columns := d.attributes.map (attributeColumn m entity)
        operations := enabledOperations settings
        deletePolicy := settings.deletePolicy
        skipFlags := entityFlags d.entity
        changesTable := settings.changesTable
        headerTable := settings.headerTable } := by
  unfold planEntity at h
  split at h
  · cases h
  · rename_i hattributes
    obtain ⟨entity, hentity, h⟩ := bind_eq_ok.mp h
    obtain ⟨owner, howner, h⟩ := bind_eq_ok.mp h
    cases h
    exact ⟨fun hnil => hattributes (List.isEmpty_iff.mpr hnil), entity, owner, hentity, howner, rfl⟩

/-- The set of a collection, as it is planned. -/
theorem eq_of_planCollection {m : Model} {d : Descriptor} {settings : Settings} {c : Collection}
    {set : TriggerSet} (h : planCollection m d settings c = .ok set) :
    ∃ target owner, m.entity c.target = .ok target ∧
      (c.link.mapM fun link =>
        Plan.owner m target.name c.targetKeys d.entity link d.identity) = .ok owner ∧
      set = {
        entity := target.name
        collection := some c.element
        service := d.service
        primaryKey := c.targetKeys
        key := encodeKey c.targetKeys .subject
        identifier := identifier m target c.identity c.targetKeys (.row .subject)
        owner := owner
        columns := [{
          name := c.element
          type := "cds.Composition"
          watched := []
          value := (identifier m target c.identity c.targetKeys (.row .subject)).getD
            (encodeKey c.targetKeys .subject)
          label := none
          skipFlag := (Skip.Scope.element d.entity c.element).flagName }]
        operations := enabledOperations settings
        deletePolicy := settings.deletePolicy
        skipFlags := entityFlags d.entity ++ [(Skip.Scope.entity target.name).flagName]
        changesTable := settings.changesTable
        headerTable := settings.headerTable } := by
  rw [planCollection, bind_eq_ok] at h
  obtain ⟨target, htarget, h⟩ := h
  obtain ⟨owner, howner, h⟩ := bind_eq_ok.mp h
  cases h
  exact ⟨target, owner, htarget, howner, rfl⟩

/-- The columns of an entity's own set are those of its attributes. -/
theorem columns_of_planEntity {m : Model} {d : Descriptor} {settings : Settings}
    {set : TriggerSet} (h : planEntity m d settings = .ok (some set)) :
    ∃ entity, m.entity d.entity = .ok entity ∧
      set.columns = d.attributes.map (attributeColumn m entity) := by
  obtain ⟨-, entity, _, hentity, -, rfl⟩ := eq_of_planEntity h
  exact ⟨entity, hentity, rfl⟩

theorem operations_of_planEntity {m : Model} {d : Descriptor} {settings : Settings}
    {set : TriggerSet} (h : planEntity m d settings = .ok (some set)) :
    set.operations = enabledOperations settings := by
  obtain ⟨-, _, _, -, -, rfl⟩ := eq_of_planEntity h
  rfl

theorem deletePolicy_of_planEntity {m : Model} {d : Descriptor} {settings : Settings}
    {set : TriggerSet} (h : planEntity m d settings = .ok (some set)) :
    set.deletePolicy = settings.deletePolicy := by
  obtain ⟨-, _, _, -, -, rfl⟩ := eq_of_planEntity h
  rfl

/-- The set of a collection has one column, whose value is the identifier of a child or,
where there is none, its key. -/
theorem columns_of_planCollection {m : Model} {d : Descriptor} {settings : Settings}
    {c : Collection} {set : TriggerSet} (h : planCollection m d settings c = .ok set) :
    ∃ target column, m.entity c.target = .ok target ∧ set.columns = [column] ∧
      column.watched = [] ∧ column.label = none ∧
      column.value = (identifier m target c.identity c.targetKeys (.row .subject)).getD
        (encodeKey c.targetKeys .subject) := by
  obtain ⟨target, _, htarget, -, rfl⟩ := eq_of_planCollection h
  exact ⟨target, _, htarget, rfl, rfl, rfl, rfl⟩

theorem operations_of_planCollection {m : Model} {d : Descriptor} {settings : Settings}
    {c : Collection} {set : TriggerSet} (h : planCollection m d settings c = .ok set) :
    set.operations = enabledOperations settings := by
  obtain ⟨_, _, -, -, rfl⟩ := eq_of_planCollection h
  rfl

/-- Every planned set is for the operations that the settings enable. -/
theorem operations_of_planAll {m : Model} {d : Descriptor} {settings : Settings}
    {sets : List TriggerSet} (h : planAll m d settings = .ok sets) {set : TriggerSet}
    (hset : set ∈ sets) : set.operations = enabledOperations settings := by
  rcases mem_planAll h hset with hown | ⟨c, -, hcollection⟩
  · exact operations_of_planEntity hown
  · exact operations_of_planCollection hcollection

/-- A planned set has a trigger for creates where the settings track creates. -/
theorem isEnabled_create {settings : Settings} {set : TriggerSet}
    (h : set.operations = enabledOperations settings) (hcreates : settings.ignoreCreates = false) :
    set.isEnabled .create = true := by
  rw [TriggerSet.isEnabled, h]
  simp [enabledOperations, Operation.all, hcreates]

theorem nodup_enabledOperations (settings : Settings) : (enabledOperations settings).Nodup :=
  List.filter_sublist.nodup (by decide)

/-- The own set of an entity is on the entity's table, and known by the entity's key. -/
theorem table_of_planEntity {m : Model} {d : Descriptor} {settings : Settings}
    {set : TriggerSet} (h : planEntity m d settings = .ok (some set)) :
    d.attributes ≠ [] ∧ set.entity = d.entity ∧ set.collection = none ∧
      set.primaryKey = d.primaryKey := by
  obtain ⟨hattributes, _, _, -, -, rfl⟩ := eq_of_planEntity h
  exact ⟨hattributes, rfl, rfl, rfl⟩

/-- The set of a collection is on the table of the children, and known by their key. -/
theorem table_of_planCollection {m : Model} {d : Descriptor} {settings : Settings}
    {c : Collection} {set : TriggerSet} (h : planCollection m d settings c = .ok set) :
    ∃ target, m.entity c.target = .ok target ∧ set.entity = target.name ∧
      set.collection = some c.element ∧ set.primaryKey = c.targetKeys := by
  obtain ⟨target, _, htarget, -, rfl⟩ := eq_of_planCollection h
  exact ⟨target, htarget, rfl, rfl, rfl⟩

/-- The records of an entity's own set carry the entity's key and identifier, and the owner
of a bound child. -/
theorem identity_of_planEntity {m : Model} {d : Descriptor} {settings : Settings}
    {set : TriggerSet} (h : planEntity m d settings = .ok (some set)) :
    ∃ entity, m.entity d.entity = .ok entity ∧
      set.key = encodeKey d.primaryKey .subject ∧
      set.identifier = identifier m entity d.identity d.primaryKey (.row .subject) ∧
      (d.binding.mapM fun binding =>
        owner m d.entity d.primaryKey binding.root binding.link binding.identity) =
          .ok set.owner := by
  obtain ⟨-, entity, _, hentity, howner, rfl⟩ := eq_of_planEntity h
  exact ⟨entity, hentity, rfl, rfl, howner⟩

/-- The records of a collection's set carry the child's key and identifier, and the entity of
the collection as the owner of a linked child. -/
theorem identity_of_planCollection {m : Model} {d : Descriptor} {settings : Settings}
    {c : Collection} {set : TriggerSet} (h : planCollection m d settings c = .ok set) :
    ∃ target, m.entity c.target = .ok target ∧
      set.key = encodeKey c.targetKeys .subject ∧
      set.identifier = identifier m target c.identity c.targetKeys (.row .subject) ∧
      (c.link.mapM fun link => owner m target.name c.targetKeys d.entity link d.identity) =
        .ok set.owner := by
  obtain ⟨target, _, htarget, howner, rfl⟩ := eq_of_planCollection h
  exact ⟨target, htarget, rfl, rfl, howner⟩

/-- The records of every planned set carry the key and the identifier of a row of its table, and
an owner only where it is planned for a link. -/
theorem identity_of_planAll {m : Model} {d : Descriptor} {settings : Settings}
    {sets : List TriggerSet} (h : planAll m d settings = .ok sets) {set : TriggerSet}
    (hset : set ∈ sets) :
    set.key = encodeKey set.primaryKey .subject ∧
      (∃ entity fields,
        set.identifier = identifier m entity fields set.primaryKey (.row .subject)) ∧
      ∀ o, set.owner = some o → ∃ rootName link fields,
        owner m set.entity set.primaryKey rootName link fields = .ok o := by
  rcases mem_planAll h hset with hown | ⟨c, -, hcollection⟩
  · obtain ⟨-, entity, found, -, howner, rfl⟩ := eq_of_planEntity hown
    refine ⟨rfl, ⟨entity, d.identity, rfl⟩, ?_⟩
    rintro o rfl
    obtain ⟨binding, -, ho⟩ := exists_of_mapM_eq_some howner
    exact ⟨binding.root, binding.link, binding.identity, ho⟩
  · obtain ⟨target, found, -, howner, rfl⟩ := eq_of_planCollection hcollection
    refine ⟨rfl, ⟨target, c.identity, rfl⟩, ?_⟩
    rintro o rfl
    obtain ⟨link, -, ho⟩ := exists_of_mapM_eq_some howner
    exact ⟨d.entity, link, d.identity, ho⟩

/-- The one column of a collection's set stands for the composition element. -/
theorem column_of_planCollection {m : Model} {d : Descriptor} {settings : Settings}
    {c : Collection} {set : TriggerSet} (h : planCollection m d settings c = .ok set) :
    ∃ column, set.columns = [column] ∧ column.name = c.element ∧ column.type = "cds.Composition" ∧
      column.skipFlag = (Skip.Scope.element d.entity c.element).flagName := by
  obtain ⟨_, _, -, -, rfl⟩ := eq_of_planCollection h
  exact ⟨_, rfl, rfl, rfl, rfl⟩

/-- A planned set writes to the tables of the settings, shows the service of the descriptor, and
is suppressed by flags of scopes. -/
theorem history_of_planAll {m : Model} {d : Descriptor} {settings : Settings}
    {sets : List TriggerSet} (h : planAll m d settings = .ok sets) {set : TriggerSet}
    (hset : set ∈ sets) :
    set.service = d.service ∧ set.changesTable = settings.changesTable ∧
      set.headerTable = settings.headerTable ∧
      ∀ flag ∈ set.skipFlags, ∃ scope : Skip.Scope, flag = scope.flagName := by
  have hentityFlags (entity : String) :
      ∀ flag ∈ entityFlags entity, ∃ scope : Skip.Scope, flag = scope.flagName :=
    List.forall_mem_cons.mpr ⟨⟨_, rfl⟩, List.forall_mem_singleton.mpr ⟨_, rfl⟩⟩
  rcases mem_planAll h hset with hown | ⟨c, -, hcollection⟩
  · obtain ⟨-, _, _, -, -, rfl⟩ := eq_of_planEntity hown
    exact ⟨rfl, rfl, rfl, hentityFlags _⟩
  · obtain ⟨_, _, -, -, rfl⟩ := eq_of_planCollection hcollection
    refine ⟨rfl, rfl, rfl, List.forall_mem_append.mpr ⟨hentityFlags _, ?_⟩⟩
    exact List.forall_mem_singleton.mpr ⟨_, rfl⟩

/-- A phrase is made of the values of the paths that lead somewhere, and there are some. -/
theorem parts_of_phrase {m : Model} {entity : Entity} {paths : List (String × Origin)} {e : Expr}
    (h : phrase m entity paths = some e) :
    ∃ values, values ≠ [] ∧ e = .encoded .truncated (.listJoin values) ∧
      ∀ value ∈ values, ∃ p ∈ paths, ∃ route, m.route entity p.1 = .ok route ∧
        value = routeValue m route p.2 := by
  unfold phrase at h
  split at h
  · cases h
  · rename_i hnonempty
    cases h
    refine ⟨_, hnonempty, rfl, fun value hvalue => ?_⟩
    obtain ⟨p, hp, hvalue⟩ := List.mem_filterMap.mp hvalue
    rw [pathValue] at hvalue
    -- A path that leads nowhere contributes nothing.
    cases hroute : m.route entity p.1 with
    | error deadEnd =>
        rw [hroute] at hvalue
        cases hvalue
    | ok route =>
        rw [hroute] at hvalue
        cases hvalue
        exact ⟨p, hp, route, hroute, rfl⟩

/-- The owner of a child is an entity of the model. -/
theorem entity_of_owner {m : Model} {child rootName : String} {childKey : List String}
    {link : RootLink} {fields : List IdentityField} {o : Owner}
    (h : owner m child childKey rootName link fields = .ok o) :
    ∃ root, m.get? rootName = some root ∧ o.entity = root.name := by
  rw [owner, bind_eq_ok] at h
  obtain ⟨root, hroot, h⟩ := h
  cases h
  exact ⟨root, Schema.Model.entity_eq_ok_iff.mp hroot, rfl⟩

/-- An owner is read by the link of the child: its key from the linked columns, and its
identifier from the record that they lead to. -/
theorem parts_of_owner {m : Model} {child rootName : String} {childKey : List String}
    {link : RootLink} {fields : List IdentityField} {o : Owner}
    (h : owner m child childKey rootName link fields = .ok o) :
    ∃ root, m.entity rootName = .ok root ∧
      o.key = joinedKey (link.joins.map fun join =>
        rawText ((linkOrigin child childKey link).read join.source)) ∧
      o.identifier = identifier m root fields (link.joins.map (·.target))
        (.keyed root.name (link.joins.map fun join =>
          (join.target, (linkOrigin child childKey link).read join.source))) := by
  rw [owner, bind_eq_ok] at h
  obtain ⟨root, hroot, h⟩ := h
  cases h
  exact ⟨root, hroot, rfl, rfl⟩

end ChangeTracking.Plan
