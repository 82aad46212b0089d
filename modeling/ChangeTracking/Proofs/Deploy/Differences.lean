import ChangeTracking.Proofs.Deploy.Staleness
import ChangeTracking.Proofs.NameMaps

/-!
# Differences of manifests

What is removed and what is stale are together the difference of two manifests: deleting the
removed names from the previous fingerprints and writing the current ones under the stale names
gives the current fingerprints.  No name is listed twice or in both lists, and as long as
version, backend and settings stay as they are, no name is listed needlessly.
-/

namespace ChangeTracking

/-! ## Maps with some entries changed -/

namespace NameMap

variable {α : Type}

/-- The map without the entries under some names. -/
def without (m : NameMap α) (names : List String) : NameMap α :=
  ⟨m.entries.filter fun e => !names.contains e.1, m.ascending.filter _⟩

/-- The map with the values that another one has under some names. -/
def overwrite (m source : NameMap α) (names : List String) : NameMap α :=
  m.insertAll (names.filterMap fun name => (source.get? name).map fun value => (name, value))

theorem get?_without (m : NameMap α) (names : List String) (name : String) :
    (m.without names).get? name = if name ∈ names then none else m.get? name := by
  refine Option.ext fun value => ?_
  rw [get?_eq_some_iff, without, List.mem_filter, ← get?_eq_some_iff]
  by_cases h : name ∈ names <;> simp [h]

theorem overwrite_cons (m source : NameMap α) (first : String) (names : List String) :
    m.overwrite source (first :: names) =
      (match source.get? first with
        | none => m
        | some value => m.insert first value).overwrite source names := by
  rw [overwrite, List.filterMap_cons]
  cases source.get? first <;> rfl

theorem get?_overwrite (m source : NameMap α) (names : List String) (name : String) :
    (m.overwrite source names).get? name =
      if name ∈ names then (source.get? name).or (m.get? name) else m.get? name := by
  induction names generalizing m with
  | nil => rfl
  | cons first names ih =>
      rw [overwrite_cons, ih]
      by_cases heq : name = first
      · subst heq
        cases hsource : source.get? name <;> simp [get?_insert]
      · cases source.get? first <;> simp [get?_insert, heq]

end NameMap

namespace Deploy.Manifest

variable {m previous : Manifest} {name : String}

/-! ## Names of both kinds -/

theorem mem_removed_iff : name ∈ m.removed previous ↔
    previous.entities.contains name = true ∧ m.entities.get? name = none := by
  rw [removed, List.mem_filter, NameMap.mem_names, NameMap.contains, NameMap.contains,
    Bool.not_eq_true', Option.isSome_eq_false_iff, Option.isNone_iff_eq_none]

/-- What is neither removed nor stale has the fingerprint that it had before, if any. -/
theorem get?_of_kept (hremoved : name ∉ m.removed previous)
    (hstale : name ∉ m.stale (some previous)) :
    previous.entities.get? name = m.entities.get? name := by
  cases hnow : m.entities.get? name with
  | none =>
      refine Option.not_isSome_iff_eq_none.mp fun hbefore => ?_
      exact hremoved (mem_removed_iff.mpr ⟨hbefore, hnow⟩)
  | some value =>
      refine Classical.not_not.mp fun hne => hstale ?_
      exact mem_stale_iff.mpr ⟨value, hnow, .inr hne⟩

theorem disjoint_stale_removed (m previous : Manifest) :
    (m.stale (some previous)).Disjoint (m.removed previous) := by
  intro name hstale hremoved
  obtain ⟨value, hvalue, -⟩ := mem_stale_iff.mp hstale
  rw [(mem_removed_iff.mp hremoved).2] at hvalue
  cases hvalue

theorem pairwise_stale (m : Manifest) (previous : Option Manifest) :
    (m.stale previous).Pairwise (· < ·) := by
  cases previous with
  | none => exact m.entities.pairwise_names
  | some previous =>
      rw [stale]
      split
      · exact m.entities.pairwise_names
      · exact List.pairwise_map.mpr (m.entities.ascending.filter _)

theorem pairwise_removed (m previous : Manifest) : (m.removed previous).Pairwise (· < ·) :=
  previous.entities.pairwise_names.filter _

/-! ## The patch -/

/-- The previous fingerprints, brought up to date with the lists of removed and stale names. -/
def patch (m previous : Manifest) : NameMap String :=
  (previous.entities.without (m.removed previous)).overwrite m.entities (m.stale (some previous))

theorem patch_eq (m previous : Manifest) : m.patch previous = m.entities := by
  refine NameMap.ext_get? fun name => ?_
  rw [patch, NameMap.get?_overwrite, NameMap.get?_without]
  by_cases hstale : name ∈ m.stale (some previous)
  · have hkept : name ∉ m.removed previous := disjoint_stale_removed m previous hstale
    obtain ⟨value, hvalue, -⟩ := mem_stale_iff.mp hstale
    rw [if_pos hstale, if_neg hkept, hvalue, Option.some_or]
  · rw [if_neg hstale]
    by_cases hremoved : name ∈ m.removed previous
    · rw [if_pos hremoved, (mem_removed_iff.mp hremoved).2]
    · rw [if_neg hremoved, get?_of_kept hremoved hstale]

theorem invalidatesAll_eq_true_iff : m.invalidatesAll previous = true ↔
    m.version ≠ previous.version ∨ m.backend ≠ previous.backend ∨
      m.settingsFingerprint ≠ previous.settingsFingerprint := by
  rw [invalidatesAll, Bool.or_eq_true, Bool.or_eq_true, bne_iff_ne, bne_iff_ne, bne_iff_ne,
    or_assoc]

/-- Removed and stale names are the difference of two manifests.  They say what to delete and
what to write in order to get from the previous fingerprints to the current ones; both lists
are in order, and they have no name in common.  As long as version, backend and settings stay
as they are, only new and changed entities are stale; otherwise all of them are. -/
theorem stale_removed_patch (m previous : Manifest) :
    m.patch previous = m.entities ∧
      (m.stale (some previous)).Disjoint (m.removed previous) ∧
      (m.stale (some previous)).Pairwise (· < ·) ∧
      (m.removed previous).Pairwise (· < ·) ∧
      (m.version = previous.version → m.backend = previous.backend →
        m.settingsFingerprint = previous.settingsFingerprint →
        ∀ name ∈ m.stale (some previous), ∃ value, m.entities.get? name = some value ∧
          (previous.entities.get? name = none ∨
            ∃ before, previous.entities.get? name = some before ∧ before ≠ value)) ∧
      (m.version ≠ previous.version ∨ m.backend ≠ previous.backend ∨
        m.settingsFingerprint ≠ previous.settingsFingerprint →
        m.stale (some previous) = m.entities.names) := by
  refine ⟨patch_eq m previous, disjoint_stale_removed m previous, pairwise_stale m _,
    pairwise_removed m previous, fun hversion hbackend hsettings name hname => ?_, fun h => ?_⟩
  · obtain ⟨value, hvalue, hall | hne⟩ := mem_stale_iff.mp hname
    · -- Nothing is invalidated where version, backend and settings are the same.
      have hchanged := invalidatesAll_eq_true_iff.mp hall
      simp [hversion, hbackend, hsettings] at hchanged
    · refine ⟨value, hvalue, ?_⟩
      cases hbefore : previous.entities.get? name with
      | none => exact .inl rfl
      | some before => exact .inr ⟨before, rfl, fun heq => hne (by rw [hbefore, heq])⟩
  · rw [stale, if_pos (invalidatesAll_eq_true_iff.mpr h)]

/-! ## Two runs for a shop -/

/-- A manifest for SQLite with the given fingerprints. -/
def ofFingerprints (settings : String) (entities : List (String × String)) : Manifest :=
  ⟨currentVersion, .sqlite, startOf 2026, settings, .ofList entities⟩

/-- Orders stay, customers change, countries are new and items are gone. -/
theorem patch_changed_customers :
    let previous := ofFingerprints "a1"
      [("shop.Orders", "01"), ("shop.Customers", "02"), ("shop.Items", "03")]
    let current := ofFingerprints "a1"
      [("shop.Orders", "01"), ("shop.Customers", "12"), ("shop.Countries", "04")]
    let resettled := ofFingerprints "a2" [("shop.Orders", "01")]
    current.stale (some previous) = ["shop.Countries", "shop.Customers"] ∧
      current.removed previous = ["shop.Items"] ∧
      current.patch previous = current.entities ∧
      (∃ value, current.entities.get? "shop.Customers" = some value ∧
        (previous.entities.get? "shop.Customers" = none ∨
          ∃ before, previous.entities.get? "shop.Customers" = some before ∧ before ≠ value)) ∧
      resettled.stale (some current) = ["shop.Orders"] := by
  intro previous current resettled
  have hpatch := stale_removed_patch current previous
  have hresettled := stale_removed_patch resettled current
  have hstale : current.stale (some previous) = ["shop.Countries", "shop.Customers"] := by
    decide +kernel
  refine ⟨hstale, by decide +kernel, hpatch.1,
    hpatch.2.2.2.2.1 rfl rfl rfl "shop.Customers" (by simp [hstale]), ?_⟩
  exact hresettled.2.2.2.2.2 (.inr (.inr (by decide)))

end Deploy.Manifest

end ChangeTracking
