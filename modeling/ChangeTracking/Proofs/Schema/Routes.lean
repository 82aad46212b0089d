import ChangeTracking.Proofs.Steps
import ChangeTracking.Schema.Route

/-!
# What routes look like

A walk that succeeds ends on the entity at hand or takes a hop and goes on from there.  By
induction every hop of a route agrees with the record before it on some column, a route
ends on some column, and a route without hops on the entity that it starts from.
-/

namespace ChangeTracking.Schema

variable {m : Model} {current : Entity} {route : Route}

/-! ## One step -/

theorem element_of_element? {segment : String} {element : Element}
    (h : current.element? segment = some element) :
    element ∈ current.elements ∧ element.name = segment := by
  have hname := List.find?_some h
  exact ⟨List.mem_of_find?_eq_some h, eq_of_beq hname⟩

/-- The ways in which a route ends on the entity at hand: on the column of an element, on the
foreign keys of an association, or on the column that holds one key of its target. -/
inductive Route.EndsAt (current : Entity) : Route → Prop
  | element {column : String} {element : Element}
      (helement : current.element? column = some element) :
      EndsAt current (.toElement current element [column])
  | foreignKeys {segment : String} {element : Element}
      (helement : current.element? segment = some element)
      (hcolumns : element.foreignKeyColumns ≠ []) :
      EndsAt current (.toForeignKey current "cds.Association" element.foreignKeyColumns)
  | key {segment key : String} {element : Element} {association : Association}
      (helement : current.element? segment = some element)
      (hassociation : element.association = some association) (hkey : key ∈ association.keys) :
      EndsAt current (.toForeignKey current "cds.String" [segment ++ "_" ++ key])

theorem endsAt_of_flattened {segments : List String}
    (h : flattened? current segments = some route) : route.EndsAt current := by
  unfold flattened? at h
  dsimp only at h
  split at h
  · cases h
  · rename_i element helement
    split at h
    · cases h
      exact .element helement
    · cases h

theorem endsAt_of_lastStep {segment : String} (h : lastStep current segment = .ok route) :
    route.EndsAt current := by
  unfold lastStep at h
  split at h
  · cases h
  · rename_i element helement
    split at h
    · split at h
      · cases h
      · rename_i hcolumns
        cases h
        exact .foreignKeys helement fun hnil => hcolumns (List.isEmpty_iff.mpr hnil)
    · split at h
      · cases h
      · cases h
        obtain ⟨-, rfl⟩ := element_of_element? helement
        exact .element helement

theorem endsAt_keyStep {segment key : String} {element : Element} {association : Association}
    (helement : current.element? segment = some element)
    (hassociation : element.association = some association) (hkey : key ∈ association.keys) :
    (keyStep current segment key).EndsAt current := by
  unfold keyStep
  dsimp only
  split
  · rename_i holder hholder
    exact .element hholder
  · exact .key helement hassociation hkey

namespace Route

/-- The route ends on the entity at hand. -/
def EndsOn (route : Route) (current : Entity) : Prop :=
  route.hops = [] ∧ route.holder = current.name

theorem EndsAt.endsOn (h : route.EndsAt current) : route.EndsOn current := by
  cases h <;> exact ⟨rfl, rfl⟩

theorem EndsAt.columns_ne_nil (h : route.EndsAt current) : route.columns ≠ [] := by
  cases h with
  | element => exact List.cons_ne_nil _ _
  | foreignKeys _ hcolumns => exact hcolumns
  | key => exact List.cons_ne_nil _ _

/-- Only foreign keys end a route on several columns, and these are not localized. -/
theorem EndsAt.column_of_isLocalized (h : route.EndsAt current)
    (hlocalized : route.isLocalized = true) : ∃ column, route.columns = [column] := by
  cases h with
  | element => exact ⟨_, rfl⟩
  | foreignKeys => cases hlocalized
  | key => exact ⟨_, rfl⟩

end Route

namespace Model

theorem joins_ne_nil_of_hop {segment : String} {association : Association} {hop : Hop}
    {target : Entity} (h : m.hop segment association = .ok (hop, target)) : hop.joins ≠ [] := by
  unfold Model.hop at h
  split at h
  · cases h
  · rename_i hjoins
    split at h
    · cases h
    · split at h
      · cases h
      · cases h
        exact fun hnil => hjoins (List.isEmpty_iff.mpr hnil)

/-! ## Whole routes -/

/-- The ways in which a route leads from an entity: it ends on a flattened column, on an
element or on a key that a foreign key holds, or it goes on behind a hop. -/
inductive Leads (m : Model) : Entity → Route → Prop
  | flattened {current : Entity} {segments : List String} {route : Route}
      (h : flattened? current segments = some route) : Leads m current route
  | last {current : Entity} {segment : String} {route : Route}
      (h : lastStep current segment = .ok route) : Leads m current route
  | key {current : Entity} {segment key : String} {element : Element} {association : Association}
      (helement : current.element? segment = some element)
      (hassociation : element.association = some association) (hkey : key ∈ association.keys) :
      Leads m current (keyStep current segment key)
  | hop {current target : Entity} {segment : String} {element : Element}
      {association : Association} {hop : Hop} {tail : Route}
      (helement : current.element? segment = some element)
      (hassociation : element.association = some association)
      (hhop : m.hop segment association = .ok (hop, target)) (htail : Leads m target tail) :
      Leads m current (tail.prepend hop)

/-- What holds of the routes that end on an entity, and of a route behind a hop where it holds of
the rest, holds of every route. -/
theorem Leads.ends_or_hop
    {motive : (current : Entity) → (route : Route) → m.Leads current route → Prop}
    (ends : ∀ {current : Entity} {route : Route} (h : m.Leads current route),
      route.EndsAt current → motive current route h)
    (hop : ∀ {current target : Entity} {segment : String} {element : Element}
      {association : Association} {hop : Hop} {tail : Route}
      (helement : current.element? segment = some element)
      (hassociation : element.association = some association)
      (hhop : m.hop segment association = .ok (hop, target)) (htail : m.Leads target tail),
      motive target tail htail →
        motive current (tail.prepend hop) (.hop helement hassociation hhop htail))
    {current : Entity} {route : Route} (h : m.Leads current route) : motive current route h := by
  induction h with
  | flattened hflattened => exact ends _ (endsAt_of_flattened hflattened)
  | last hlast => exact ends _ (endsAt_of_lastStep hlast)
  | key helement hassociation hkey => exact ends _ (endsAt_keyStep helement hassociation hkey)
  | hop helement hassociation hhop htail ih => exact hop helement hassociation hhop htail ih

theorem leads_of_walk {path segment : String} {budget : Nat} {rest : List String}
    (h : m.walk path budget current segment rest = .ok route) : m.Leads current route := by
  -- On the segments left: a walk that stops ends on the entity at hand, and a hop uses one up.
  induction rest generalizing budget current segment route with
  | nil =>
      rw [walk] at h
      exact .last h
  | cons next rest ih =>
      rw [walk] at h
      split at h
      · split at h
        · rename_i hflattened
          cases h
          exact .flattened hflattened
        · cases h
      · rename_i element helement
        split at h
        · split at h
          · rename_i hflattened
            cases h
            exact .flattened hflattened
          · cases h
        · rename_i association hassociation
          split at h
          · rename_i hkey
            cases h
            have hmem := List.contains_iff_mem.mp (Bool.and_eq_true_iff.mp hkey).2
            exact .key helement hassociation hmem
          · split at h
            · rename_i hflattened
              cases h
              exact .flattened hflattened
            · split at h
              · cases h
              · rename_i hhop
                split at h
                · cases h
                · obtain ⟨tail, htail, rfl⟩ := map_eq_ok.mp h
                  exact .hop helement hassociation hhop (ih htail)

/-- The route of a path leads from the entity that the path starts from. -/
theorem leads_of_route {path : String} (h : m.route current path = .ok route) :
    m.Leads current route := by
  unfold Model.route at h
  split at h
  · cases h
  · exact leads_of_walk h

/-- Every hop of a route agrees with the record before it on some column. -/
theorem Leads.joins_ne_nil (h : m.Leads current route) : ∀ hop ∈ route.hops, hop.joins ≠ [] := by
  induction h using Leads.ends_or_hop with
  | ends _ hends =>
      rw [hends.endsOn.1]
      exact List.forall_mem_nil _
  | hop _ _ hhop _ ih => exact List.forall_mem_cons.mpr ⟨joins_ne_nil_of_hop hhop, ih⟩

/-- A route without hops ends on the entity that it starts from. -/
theorem Leads.endsAt (h : m.Leads current route) (hlocal : route.hops = []) :
    route.EndsAt current := by
  induction h using Leads.ends_or_hop with
  | ends _ hends => exact hends
  | hop => cases hlocal

/-- A route ends on some column. -/
theorem Leads.columns_ne_nil (h : m.Leads current route) : route.columns ≠ [] := by
  induction h using Leads.ends_or_hop with
  | ends _ hends => exact hends.columns_ne_nil
  | hop _ _ _ _ ih => exact ih

/-- A route to a localized value ends on the one column of its element. -/
theorem Leads.column_of_isLocalized (h : m.Leads current route)
    (hlocalized : route.isLocalized = true) : ∃ column, route.columns = [column] := by
  induction h using Leads.ends_or_hop with
  | ends _ hends => exact hends.column_of_isLocalized hlocalized
  | hop _ _ _ _ ih => exact ih hlocalized

end Model

end ChangeTracking.Schema
