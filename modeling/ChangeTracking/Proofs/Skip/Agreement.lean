import ChangeTracking.Proofs.Plan.PlannedSets
import ChangeTracking.Proofs.Skip.Runs

/-!
# Two views of skipping

A writer asks its context whether a change is suppressed, and the context compares scopes as
they are spelled.  A trigger asks the session for three flags, whose names do not tell upper
case from lower case.  So a trigger finds a flag set where any spelling of the scope was
skipped, and the two views agree where none was skipped in another spelling only.
-/

namespace ChangeTracking.Skip

/-! ## Scopes that cover an element -/

/-- The scopes by which an element of an entity can be skipped, from the widest on. -/
def Scope.covering (entity element : String) : List Scope :=
  [.everything, .entity entity, .element entity element]

/-- The flags that the triggers on an entity read for one of its elements. -/
def readFlags (entity element : String) : List String :=
  Plan.entityFlags entity ++ [(Scope.element entity element).flagName]

theorem readFlags_eq (entity element : String) :
    readFlags entity element = (Scope.covering entity element).map Scope.flagName := rfl

/-- What the triggers of an entity's own set read: the flags of the set, then the column's. -/
theorem readFlags_of_planEntity {m : Schema.Model} {d : Tracking.Descriptor} {settings : Settings}
    {set : Plan.TriggerSet} (h : Plan.planEntity m d settings = .ok (some set))
    {column : Plan.TrackedColumn} (hcolumn : column ∈ set.columns) :
    set.skipFlags ++ [column.skipFlag] = readFlags set.entity column.name := by
  obtain ⟨-, entity, _, hentity, -, rfl⟩ := Plan.eq_of_planEntity h
  obtain ⟨a, -, rfl⟩ := List.mem_map.mp hcolumn
  have hname : entity.name = d.entity :=
    Schema.Model.name_of_get? (Schema.Model.entity_eq_ok_iff.mp hentity)
  simp only [Plan.attributeColumn, readFlags, hname]

/-- A scope respells one that covers the element exactly where it covers the element under
other spellings of the two names. -/
theorem exists_lower_eq_iff (scope : Scope) (entity element : String) :
    (∃ own ∈ Scope.covering entity element, scope.lower = own.lower) ↔
      ∃ entity' element', entity'.toLower = entity.toLower ∧
        element'.toLower = element.toLower ∧ scope ∈ Scope.covering entity' element' := by
  constructor
  · rintro ⟨own, hown, hlower⟩
    -- The names that the scope leaves open are taken as they are.
    cases scope with
    | everything => exact ⟨entity, element, rfl, rfl, by simp [Scope.covering]⟩
    | entity name =>
        refine ⟨name, element, ?_, rfl, by simp [Scope.covering]⟩
        cases own <;> simp_all [Scope.covering, Scope.lower]
    | element owner name =>
        have hnames : owner.toLower = entity.toLower ∧ name.toLower = element.toLower := by
          cases own <;> simp_all [Scope.covering, Scope.lower]
        exact ⟨owner, name, hnames.1, hnames.2, by simp [Scope.covering]⟩
  · rintro ⟨entity', element', hentity, helement, hscope⟩
    simp only [Scope.covering, List.mem_cons, List.not_mem_nil, or_false] at hscope
    rcases hscope with rfl | rfl | rfl
    · exact ⟨.everything, by simp [Scope.covering], rfl⟩
    · exact ⟨.entity entity, by simp [Scope.covering], by simp [Scope.lower, hentity]⟩
    · exact ⟨.element entity element, by simp [Scope.covering],
        by simp [Scope.lower, hentity, helement]⟩

/-! ## The two views -/

namespace Session

variable {s : Session} {entity element : String}

/-- The writer's view: a scope that covers the element was skipped as it is spelled. -/
theorem isSkipped_iff :
    s.isSkipped entity (some element) = true ↔
      ∃ scope ∈ s.scopes, scope ∈ Scope.covering entity element := by
  simp [isSkipped, Scope.covering, and_or_left, exists_or, or_assoc]

theorem isFlagSet_flagName {own : Scope} :
    s.isFlagSet own.flagName = true ↔ ∃ scope ∈ s.scopes, scope.lower = own.lower := by
  simp only [isFlagSet, List.any_eq_true, beq_iff_eq, Scope.flagName_inj]

/-- The trigger's view: a respelling of a scope that covers the element was skipped. -/
theorem exists_isFlagSet_iff :
    (∃ flag ∈ readFlags entity element, s.isFlagSet flag = true) ↔
      ∃ scope ∈ s.scopes, ∃ own ∈ Scope.covering entity element, scope.lower = own.lower := by
  simp only [readFlags_eq, List.mem_map, exists_exists_and_eq_and, isFlagSet_flagName]
  constructor
  · rintro ⟨own, hown, scope, hscope, hlower⟩
    exact ⟨scope, hscope, own, hown, hlower⟩
  · rintro ⟨scope, hscope, own, hown, hlower⟩
    exact ⟨own, hown, scope, hscope, hlower⟩

end Session

/-- Let a session be in any state.  A flag that triggers read for an element is set exactly
where the writer is told that the element is skipped under some spelling of the two names, up
to the case of ASCII letters.  So the writer and the triggers take the same view of an element
if every skipped scope that respells one covering it does cover it. -/
theorem isSkipped_iff_isFlagSet (s : Session) (entity element : String) :
    ((∃ flag ∈ readFlags entity element, s.isFlagSet flag = true) ↔
      ∃ entity' element', entity'.toLower = entity.toLower ∧
        element'.toLower = element.toLower ∧ s.isSkipped entity' (some element') = true) ∧
    ((∀ scope ∈ s.scopes, ∀ own ∈ Scope.covering entity element,
        scope.lower = own.lower → scope ∈ Scope.covering entity element) →
      (s.isSkipped entity (some element) = true ↔
        ∃ flag ∈ readFlags entity element, s.isFlagSet flag = true)) := by
  simp only [Session.exists_isFlagSet_iff, Session.isSkipped_iff]
  refine ⟨?_, fun hspelled => ?_⟩
  · simp only [exists_lower_eq_iff]
    constructor
    · rintro ⟨scope, hscope, entity', element', hentity, helement, hcovers⟩
      exact ⟨entity', element', hentity, helement, scope, hscope, hcovers⟩
    · rintro ⟨entity', element', hentity, helement, scope, hscope, hcovers⟩
      exact ⟨scope, hscope, entity', element', hentity, helement, hcovers⟩
  · refine exists_congr fun scope => and_congr_right fun hscope => ?_
    constructor
    · exact fun hcovers => ⟨scope, hcovers, rfl⟩
    · rintro ⟨own, hown, hlower⟩
      exact hspelled scope hscope own hown hlower

/-- A transaction that publishes two skipped scopes, one of them for the total of an order. -/
def totalCalls : List Call :=
  [.skip (.entity "shop.Items"), .skip (.element "shop.Orders" "total"), .apply]

theorem total_isSkipped_iff_isFlagSet :
    let s := (Session.run {} .sqlite totalCalls).1
    (∀ scope ∈ s.scopes, ∀ own ∈ Scope.covering "shop.Orders" "total",
        scope.lower = own.lower → scope ∈ Scope.covering "shop.Orders" "total") ∧
      s.isSkipped "shop.Orders" (some "total") = true ∧
      ∃ flag ∈ readFlags "shop.Orders" "total", s.isFlagSet flag = true := by
  have hspelled : ∀ scope ∈ (Session.run {} .sqlite totalCalls).1.scopes,
      ∀ own ∈ Scope.covering "shop.Orders" "total",
        scope.lower = own.lower → scope ∈ Scope.covering "shop.Orders" "total" := by
    decide +kernel
  have hskipped : (Session.run {} .sqlite totalCalls).1.isSkipped "shop.Orders" (some "total")
      = true := by
    decide +kernel
  exact ⟨hspelled, hskipped,
    ((isSkipped_iff_isFlagSet _ "shop.Orders" "total").2 hspelled).mp hskipped⟩

/-- Orders are skipped under another spelling: the triggers on them read a flag that is set,
but the writer is told that their total is not skipped. -/
theorem respelled_orders_not_isSkipped :
    ¬ ∀ (backend : Backend) (calls : List Call) (entity element : String),
      (Session.run {} backend calls).1.isSkipped entity (some element) = true ↔
        ∃ flag ∈ readFlags entity element,
          (Session.run {} backend calls).1.isFlagSet flag = true := by
  intro hagree
  have hskipped := (hagree .sqlite [.skip (.entity "shop.orders")] "shop.Orders" "total").mpr
    ⟨"changelog.skip_entity_shop_2eorders", by decide +kernel, by decide +kernel⟩
  revert hskipped
  decide +kernel

end ChangeTracking.Skip
