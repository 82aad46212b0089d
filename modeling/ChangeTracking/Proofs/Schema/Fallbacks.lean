import ChangeTracking.Proofs.Schema.Walks
import Mathlib.Control.Monad.Basic

/-!
# Chains and flattened columns

A path may be followed segment by segment along associations, or it may end early on a column
that flattens the segments left.  A walk takes the first such column that it meets, also on an
entity from which an association would lead on.  So the chain is what counts exactly where no
entity that it leaves by a hop stores a column of that name.
-/

namespace ChangeTracking.Schema.Model

variable {m : Model} {path segment next : String} {budget : Nat} {current target start : Entity}
  {rest segments : List String} {route other : Route} {hop : Hop}

/-- The segments are followed one by one: each association to the entity that owns its target's
table, until a key that is left is read from the foreign key of its association, or the last
segment is a stored element or an association with foreign keys. -/
inductive Follows (m : Model) : Entity → List String → Route → Prop
  | element {current : Entity} {segment : String} {element : Element}
      (helement : current.element? segment = some element) (hstored : element.isStored = true) :
      Follows m current [segment] (Route.toElement current element [element.name])
  | reference {current : Entity} {segment : String} {element : Element} {association : Association}
      (helement : current.element? segment = some element)
      (hassociation : element.association = some association)
      (hmanaged : association.isManaged = true) :
      Follows m current [segment]
        (Route.toForeignKey current "cds.Association" element.foreignKeyColumns)
  | key {current : Entity} {segment key : String} (hkey : HoldsKey current segment key []) :
      Follows m current [segment, key] (keyStep current segment key)
  | hop {current target : Entity} {segment next : String} {rest : List String} {hop : Hop}
      {route : Route} (hstep : m.StepsOver current segment next rest hop target)
      (htail : Follows m target (next :: rest) route) :
      Follows m current (segment :: next :: rest) (route.prepend hop)

/-- On the way along the segments there is a stored column that flattens those that are left, and
the route ends on the first one. -/
inductive Flattens (m : Model) : Entity → List String → Route → Prop
  | here {current : Entity} {segment next : String} {rest : List String} {route : Route}
      (hmore : ¬ HoldsKey current segment next rest)
      (hflattened : flattened? current (segment :: next :: rest) = some route) :
      Flattens m current (segment :: next :: rest) route
  | behind {current target : Entity} {segment next : String} {rest : List String} {hop : Hop}
      {route : Route} (hflattened : flattened? current (segment :: next :: rest) = none)
      (hstep : m.StepsOver current segment next rest hop target)
      (htail : Flattens m target (next :: rest) route) :
      Flattens m current (segment :: next :: rest) (route.prepend hop)

/-- An entity that is left by a hop stores a column that flattens the segments left. -/
inductive Obscures (m : Model) : Entity → List String → Prop
  | here {current target : Entity} {segment next : String} {rest : List String} {hop : Hop}
      {route : Route} (hstep : m.StepsOver current segment next rest hop target)
      (hflattened : flattened? current (segment :: next :: rest) = some route) :
      Obscures m current (segment :: next :: rest)
  | behind {current target : Entity} {segment next : String} {rest : List String} {hop : Hop}
      (hstep : m.StepsOver current segment next rest hop target)
      (htail : Obscures m target (next :: rest)) : Obscures m current (segment :: next :: rest)

/-! ## One step -/

theorem lastStep_eq_ok_iff : lastStep current segment = .ok route ↔
    m.Follows current [segment] route := by
  constructor
  · intro h
    unfold lastStep at h
    split at h
    · cases h
    · rename_i element helement
      split at h
      · rename_i hassociation
        split at h
        · cases h
        · rename_i hcolumns
          cases h
          obtain ⟨association, hassociation⟩ := Option.isSome_iff_exists.mp hassociation
          refine .reference helement hassociation ?_
          simpa [Element.foreignKeyColumns, hassociation, Association.isManaged] using hcolumns
      · rename_i hnone
        split at h
        · cases h
        · rename_i hvirtual
          cases h
          refine .element helement ?_
          simp [Element.isStored, hvirtual, Option.not_isSome_iff_eq_none.mp hnone]
  · intro h
    cases h with
    | element helement hstored =>
        simp only [Element.isStored, Bool.and_eq_true, Bool.not_eq_true', Option.isNone_iff_eq_none]
          at hstored
        simp [lastStep, helement, hstored.1, hstored.2]
    | reference helement hassociation hmanaged =>
        simp only [Association.isManaged, Bool.not_eq_true'] at hmanaged
        simp [lastStep, helement, hassociation, Element.foreignKeyColumns, hmanaged]

theorem not_flattens_singleton : ¬ m.Flattens current [segment] route := fun h => nomatch h

theorem StepsOver.follows_iff (hstep : m.StepsOver current segment next rest hop target) :
    m.Follows current (segment :: next :: rest) route ↔
      ∃ tail, m.Follows target (next :: rest) tail ∧ route = tail.prepend hop := by
  constructor
  · intro h
    cases h with
    | key hkey => exact absurd hkey hstep.more
    | hop hstep' htail =>
        obtain ⟨rfl, rfl⟩ := hstep.unique hstep'
        exact ⟨_, htail, rfl⟩
  · rintro ⟨tail, htail, rfl⟩
    exact .hop hstep htail

theorem StepsOver.flattens_iff (hstep : m.StepsOver current segment next rest hop target)
    (hflattened : flattened? current (segment :: next :: rest) = none) :
    m.Flattens current (segment :: next :: rest) route ↔
      ∃ tail, m.Flattens target (next :: rest) tail ∧ route = tail.prepend hop := by
  constructor
  · intro h
    cases h with
    | here _ hfound => cases hflattened.symm.trans hfound
    | behind _ hstep' htail =>
        obtain ⟨rfl, rfl⟩ := hstep.unique hstep'
        exact ⟨_, htail, rfl⟩
  · rintro ⟨tail, htail, rfl⟩
    exact .behind hflattened hstep htail

/-! ## Whole walks -/

/-- The first flattened column on the way comes first; the chain is followed where there is
none. -/
def Prefers (m : Model) (current : Entity) (segments : List String) (route : Route) : Prop :=
  m.Flattens current segments route ∨
    m.Follows current segments route ∧ ∀ other, ¬ m.Flattens current segments other

/-- Where the move stops, it stops with what is preferred. -/
theorem Moves.stop_iff {outcome : Except DeadEnd Route}
    (h : m.Moves current segment next rest (.stop outcome)) :
    m.Prefers current (segment :: next :: rest) route ↔ outcome = .ok route := by
  unfold Prefers
  -- A held key and a flattened column come before any hop, and otherwise none is possible.
  cases h with
  | key hkey =>
      have hnone (other : Route) : ¬ m.Flattens current (segment :: next :: rest) other := by
        intro h
        cases h with
        | here hmore => exact hmore hkey
        | behind _ hstep => exact hstep.more hkey
      rw [or_iff_right (hnone route), and_iff_left hnone]
      constructor
      · intro h
        cases h with
        | key => rfl
        | hop hstep => exact absurd hkey hstep.more
      · rintro ⟨⟩
        obtain ⟨rfl, -⟩ := id hkey
        exact .key hkey
  | @flattened found hmore hflattened =>
      have hfound : m.Flattens current (segment :: next :: rest) found := .here hmore hflattened
      constructor
      · rintro (h | ⟨-, hnone⟩)
        · cases h with
          | here _ hfound => exact congrArg _ (Option.some.inj (hflattened.symm.trans hfound))
          | behind hnone => cases hflattened.symm.trans hnone
        · exact absurd hfound (hnone found)
      · rintro ⟨⟩
        exact .inl hfound
  | nowhere hmore hflattened hstep =>
      constructor
      · rintro (h | ⟨h, -⟩)
        · cases h with
          | here _ hfound => cases hflattened.symm.trans hfound
          | behind _ hstep' => exact absurd hstep' (hstep _ _)
        · cases h with
          | key hkey => exact absurd hkey hmore
          | hop hstep' => exact absurd hstep' (hstep _ _)
      · rintro ⟨⟩

/-- Where the move takes a hop, what is preferred lies behind it. -/
theorem Moves.go_iff (h : m.Moves current segment next rest (.go hop target)) :
    m.Prefers current (segment :: next :: rest) route ↔
      ∃ tail, m.Prefers target (next :: rest) tail ∧ route = tail.prepend hop := by
  cases h with
  | crosses hflattened hstep =>
      simp only [Prefers, hstep.flattens_iff hflattened, hstep.follows_iff]
      constructor
      · rintro (⟨tail, htail, rfl⟩ | ⟨⟨tail, htail, rfl⟩, hnone⟩)
        · exact ⟨tail, .inl htail, rfl⟩
        · exact ⟨tail, .inr ⟨htail, fun other hother => hnone _ ⟨other, hother, rfl⟩⟩, rfl⟩
      · rintro ⟨tail, htail | ⟨htail, hnone⟩, rfl⟩
        · exact .inl ⟨tail, htail, rfl⟩
        · refine .inr ⟨⟨tail, htail, rfl⟩, ?_⟩
          rintro other ⟨tail', htail', -⟩
          exact hnone tail' htail'

/-- A walk succeeds exactly on what is preferred, within its budget of hops. -/
theorem walk_eq_ok_iff : m.walk path budget current segment rest = .ok route ↔
    route.hops.length ≤ budget ∧ m.Prefers current (segment :: rest) route := by
  -- On the segments left: a hop uses up one of them, and one of the budget.
  induction rest generalizing budget current segment route with
  | nil =>
      have hnone (other : Route) : ¬ m.Flattens current [segment] other := not_flattens_singleton
      rw [walk, Prefers, or_iff_right (hnone route), and_iff_left hnone, ← lastStep_eq_ok_iff]
      refine ⟨fun h => ⟨?_, h⟩, And.right⟩
      rw [(endsAt_of_lastStep h).endsOn.1]
      exact Nat.zero_le _
  | cons next rest ih =>
      obtain ⟨outcome, hstop, hwalk⟩ | ⟨hop, target, hgo, hwalk⟩ :=
        m.walk_cases path budget current segment next rest
      · rw [hwalk, hstop.stop_iff]
        refine ⟨fun h => ⟨?_, h⟩, And.right⟩
        cases h
        rw [hstop.hops_eq_nil]
        exact Nat.zero_le _
      · rw [hwalk, hgo.go_iff]
        cases budget with
        | zero =>
            constructor
            · intro h
              cases h
            · rintro ⟨hlength, tail, -, rfl⟩
              exact absurd hlength (Nat.not_succ_le_zero _)
        | succ budget =>
            simp only [map_eq_ok, ih]
            constructor
            · rintro ⟨tail, ⟨hlength, htail⟩, rfl⟩
              exact ⟨Nat.succ_le_succ hlength, tail, htail, rfl⟩
            · rintro ⟨hlength, tail, htail, rfl⟩
              exact ⟨tail, ⟨Nat.le_of_succ_le_succ hlength, htail⟩, rfl⟩

/-! ## Chains that nothing obscures -/

/-- Where the chain can be followed, a flattened column is met only on an entity that the chain
leaves by a hop. -/
theorem Follows.obscures {current : Entity} {segments : List String} {route other : Route}
    (h : m.Follows current segments route) (hother : m.Flattens current segments other) :
    m.Obscures current segments := by
  induction h generalizing other with
  | element => exact absurd hother not_flattens_singleton
  | reference => exact absurd hother not_flattens_singleton
  | key hkey =>
      cases hother with
      | here hmore => exact absurd hkey hmore
      | behind _ hstep => exact absurd hkey hstep.more
  | hop hstep htail ih =>
      cases hother with
      | here _ hflattened => exact .here hstep hflattened
      | behind _ hstep' htail' =>
          obtain ⟨rfl, rfl⟩ := hstep.unique hstep'
          exact .behind hstep (ih htail')

/-- A path leads along the first flattened column that is met on the way, or else along the chain
of its segments.  Where no entity that the chain leaves by a hop stores such a column, the chain
decides if it can be followed, and a flattened column is met only if it cannot. -/
theorem route_eq_ok_iff (m : Model) (start : Entity) (path : String) :
    (∀ route, m.route start path = .ok route ↔ route.hops.length ≤ Naming.maxHops ∧
      (m.Flattens start (Text.segments '.' path) route ∨
        m.Follows start (Text.segments '.' path) route ∧
          ∀ other, ¬ m.Flattens start (Text.segments '.' path) other)) ∧
    (¬ m.Obscures start (Text.segments '.' path) →
      (∀ route, m.Follows start (Text.segments '.' path) route →
        route.hops.length ≤ Naming.maxHops → m.route start path = .ok route) ∧
      ∀ route, m.Flattens start (Text.segments '.' path) route →
        ∀ other, ¬ m.Follows start (Text.segments '.' path) other) := by
  have hroute (route : Route) : m.route start path = .ok route ↔
      route.hops.length ≤ Naming.maxHops ∧ m.Prefers start (Text.segments '.' path) route := by
    obtain ⟨segment, rest, hsegments, hwalk⟩ := exists_route_eq_walk m start path
    rw [hsegments, hwalk]
    exact walk_eq_ok_iff
  refine ⟨hroute, fun hclear => ⟨fun route hfollows hlength => ?_, fun route hflattens other
    hfollows => hclear (hfollows.obscures hflattens)⟩⟩
  exact (hroute route).mpr ⟨hlength,
    .inr ⟨hfollows, fun other hother => hclear (hfollows.obscures hother)⟩⟩

end ChangeTracking.Schema.Model

/-! ### Shipments -/

namespace ChangeTracking.Schema.Shipments

/-- An association to an entity with one key. -/
def reference (name target key : String) : Element where
  name := name
  type := "cds.Association"
  association := some { kind := .reference, target := target, keys := [key] }

/-- Orders, which store the name that the customer had when ordering, and the parts of an
address. -/
def orders : Entity where
  name := "shop.Orders"
  elements := [
    { name := "ID", isKey := true }, reference "customer" "Sales.Customers" "ID",
    { name := "customer_name" }, { name := "shippingAddress_city" }]

def customers : Entity where
  name := "shop.Customers"
  elements := [
    { name := "ID", isKey := true }, { name := "name" },
    reference "country" "shop.Countries" "code"]

/-- The customers in a service, which the orders refer to. -/
def listedCustomers : Entity where
  name := "Sales.Customers"
  projectionOf := some "shop.Customers"

def countries : Entity where
  name := "shop.Countries"
  elements := [{ name := "code", isKey := true }, { name := "name", isLocalized := true }]

def model : Model where
  entities := NameMap.ofList
    ([orders, customers, listedCustomers, countries].map fun entity => (entity.name, entity))
  checked := by decide

/-- The hop from an order to its customer. -/
def toCustomer : Hop := ⟨"shop.Customers", [⟨"ID", "customer_ID"⟩]⟩

/-- The hop from a customer to its country. -/
def toCountry : Hop := ⟨"shop.Countries", [⟨"code", "country_code"⟩]⟩

/-- A path from an order that goes beyond the key of the customer leads over to the customer. -/
theorem stepsOver_customer {next : String} {rest : List String} (hmore : rest = [] → next ≠ "ID") :
    model.StepsOver orders "customer" next rest toCustomer customers := by
  have helement : orders.element? "customer" = some (reference "customer" "Sales.Customers" "ID") :=
    rfl
  refine ⟨⟨_, _, helement, rfl, by decide +kernel⟩, ?_⟩
  rintro ⟨hnil, element, association, helement', hassociation, hkey⟩
  cases helement.symm.trans helement'
  cases hassociation
  exact hmore hnil (List.mem_singleton.mp hkey)

theorem stepsOver_country : model.StepsOver customers "country" "name" [] toCountry countries := by
  have helement :
      customers.element? "country" = some (reference "country" "shop.Countries" "code") := rfl
  refine ⟨⟨_, _, helement, rfl, by decide +kernel⟩, ?_⟩
  rintro ⟨-, element, association, helement', hassociation, hkey⟩
  cases helement.symm.trans helement'
  cases hassociation
  exact absurd hkey (by decide)

theorem segments_country :
    Text.segments '.' "customer.country.name" = ["customer", "country", "name"] := by
  decide +kernel

theorem follows_country : model.Follows orders ["customer", "country", "name"]
    (((Route.toElement countries { name := "name", isLocalized := true } ["name"]).prepend
      toCountry).prepend toCustomer) :=
  .hop (stepsOver_customer (fun h => nomatch h)) (.hop stepsOver_country (.element rfl rfl))

/-- No order and no customer stores the name of a country. -/
theorem not_obscures_country : ¬ model.Obscures orders ["customer", "country", "name"] := by
  have horders : flattened? orders ["customer", "country", "name"] = none := by decide +kernel
  have hcustomers : flattened? customers ["country", "name"] = none := by decide +kernel
  intro h
  cases h with
  | here _ hflattened => cases horders.symm.trans hflattened
  | behind hstep htail =>
      obtain ⟨rfl, rfl⟩ := hstep.unique (stepsOver_customer (fun h => nomatch h))
      cases htail with
      | here _ hflattened => cases hcustomers.symm.trans hflattened
      | behind _ htail => cases htail

/-- The path to the name of the country leads along the customer. -/
theorem route_country :
    ¬ model.Obscures orders (Text.segments '.' "customer.country.name") ∧
      ∃ route, model.Follows orders (Text.segments '.' "customer.country.name") route ∧
        route.hops = [toCustomer, toCountry] ∧ route.hops.length ≤ Naming.maxHops ∧
        model.route orders "customer.country.name" = .ok route := by
  have hclear : ¬ model.Obscures orders (Text.segments '.' "customer.country.name") := by
    rw [segments_country]
    exact not_obscures_country
  have hfollows := follows_country
  rw [← segments_country] at hfollows
  have hlength : [toCustomer, toCountry].length ≤ Naming.maxHops := by decide
  exact ⟨hclear, _, hfollows, rfl, hlength,
    ((Model.route_eq_ok_iff model orders "customer.country.name").2 hclear).1 _ hfollows hlength⟩

/-- The path to the name of the customer leads there, but the name that the order stores is taken
instead. -/
theorem route_customerName_obscured :
    ∃ route, model.Follows orders (Text.segments '.' "customer.name") route ∧
      route.hops = [toCustomer] ∧ route.hops.length ≤ Naming.maxHops ∧
      model.route orders "customer.name" ≠ .ok route ∧
      model.route orders "customer.name" =
        .ok (Route.toElement orders { name := "customer_name" } ["customer_name"]) := by
  have hsegments : Text.segments '.' "customer.name" = ["customer", "name"] := by decide +kernel
  have hroute : model.route orders "customer.name" =
      .ok (Route.toElement orders { name := "customer_name" } ["customer_name"]) := by
    decide +kernel
  have hfollows : model.Follows orders ["customer", "name"]
      ((Route.toElement customers { name := "name" } ["name"]).prepend toCustomer) :=
    .hop (stepsOver_customer fun _ => by decide) (.element rfl rfl)
  rw [hsegments]
  refine ⟨_, hfollows, rfl, by decide, ?_, hroute⟩
  rw [hroute]
  exact fun h => nomatch h

end ChangeTracking.Schema.Shipments
