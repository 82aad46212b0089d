import ChangeTracking.Proofs.Deploy.Staleness
import ChangeTracking.Proofs.NameMaps
import ChangeTracking.Proofs.Skip.Names

/-!
# Fingerprints tell snapshots apart

A manifest remembers hashes of encodings.  Encodings are known from their hashes as long as no
two of them collide, and values from their encodings as long as their lengths fit; so what a
manifest leaves out of the stale entities is what has the snapshot that it had before.
-/

namespace ChangeTracking

namespace Text

/-- A byte is known from its two digits. -/
theorem hexByte_injective : Function.Injective hexByte := by
  refine Function.LeftInverse.injective (g := fun digits => Skip.spelledByte ('_' :: digits)) ?_
  refine Skip.forall_byte ?_
  decide +kernel

theorem hex_injective : Function.Injective hex := by
  intro as bs h
  replace h : as.flatMap hexByte = bs.flatMap hexByte := String.ofList_injective h
  induction as generalizing bs with
  | nil =>
      cases bs with
      | nil => rfl
      | cons b bs => cases h
  | cons a as ih =>
      cases bs with
      | nil => cases h
      | cons b bs =>
          rw [List.flatMap_cons, List.flatMap_cons] at h
          obtain ⟨hab, hrest⟩ := List.append_inj h rfl
          rw [hexByte_injective hab, ih hrest]

end Text

namespace Deploy

open Tracking (Descriptor)

/-! ## Collisions -/

/-- No message from before has the hash of another message from after. -/
def CollisionFree (before after : List (List UInt8)) : Prop :=
  ∀ x ∈ before, ∀ y ∈ after, Binary.Sha256.digest x = Binary.Sha256.digest y → x = y

instance (before after : List (List UInt8)) : Decidable (CollisionFree before after) :=
  inferInstanceAs (Decidable (∀ x ∈ before, ∀ y ∈ after,
    Binary.Sha256.digest x = Binary.Sha256.digest y → x = y))

theorem CollisionFree.eq_of_fingerprint_eq {before after : List (List UInt8)}
    (h : CollisionFree before after) {x y : List UInt8} (hx : x ∈ before) (hy : y ∈ after)
    (heq : fingerprint x = fingerprint y) : x = y :=
  h x hx y hy (Text.hex_injective heq)

/-! ## What a manifest remembers -/

/-- The descriptors by entity; of several under one name the last one stays. -/
def snapshots (ds : List Descriptor) : NameMap Descriptor :=
  .ofList (ds.map fun d => (d.entity, d))

theorem mem_of_get?_snapshots {ds : List Descriptor} {name : String} {d : Descriptor}
    (h : (snapshots ds).get? name = some d) : d ∈ ds := by
  obtain ⟨d', hd', heq⟩ := List.mem_map.mp (NameMap.mem_of_get?_ofList h)
  cases heq
  exact hd'

namespace Manifest

/-- The manifest holds the fingerprints of the descriptors and of the settings, whatever version,
backend and time it is of. -/
structure Records (m : Manifest) (ds : List Descriptor) (settings : Settings) : Prop where
  settings_eq : m.settingsFingerprint = fingerprint settings.encode
  entities_eq : m.entities = .ofList (ds.map fun d => (d.entity, fingerprint d.encode))

theorem records_build (backend : Backend) (ds : List Descriptor) (settings : Settings)
    (now : Time.Instant) : (build backend ds settings now).Records ds settings :=
  ⟨rfl, rfl⟩

variable {m previous : Manifest} {ds ds₁ ds₂ : List Descriptor} {settings s₁ s₂ : Settings}
  {name : String}

theorem Records.get?_entities (h : m.Records ds settings) (name : String) :
    m.entities.get? name = ((snapshots ds).get? name).map fun d => fingerprint d.encode := by
  rw [h.entities_eq, snapshots, ← NameMap.get?_ofList_map, List.map_map]
  rfl

/-- Two manifests are compared entity by entity where version, backend and settings agree. -/
theorem invalidatesAll_eq_false_iff (h₁ : previous.Records ds₁ s₁) (h₂ : m.Records ds₂ s₂)
    (hfits₁ : s₁.Fits) (hfits₂ : s₂.Fits) (hfree : CollisionFree [s₁.encode] [s₂.encode]) :
    m.invalidatesAll previous = false ↔
      m.version = previous.version ∧ m.backend = previous.backend ∧ s₂ = s₁ := by
  have hsettings : m.settingsFingerprint = previous.settingsFingerprint ↔ s₂ = s₁ := by
    rw [h₁.settings_eq, h₂.settings_eq]
    constructor
    · intro heq
      have hencode := hfree.eq_of_fingerprint_eq List.mem_cons_self List.mem_cons_self heq.symm
      exact (selfDelimiting_settings.eq_of_encode_eq hfits₁ hfits₂ hencode).symm
    · rintro rfl
      rfl
  simp [invalidatesAll, and_assoc, hsettings]

/-- The fingerprint under a name is what it was exactly where the snapshot is. -/
theorem get?_entities_eq_iff (h₁ : previous.Records ds₁ s₁) (h₂ : m.Records ds₂ s₂)
    (hfits : ∀ d ∈ ds₁ ++ ds₂, d.Fits)
    (hfree : CollisionFree (ds₁.map Descriptor.encode) (ds₂.map Descriptor.encode)) :
    m.entities.get? name = previous.entities.get? name ↔
      (snapshots ds₂).get? name = (snapshots ds₁).get? name := by
  rw [h₁.get?_entities, h₂.get?_entities]
  constructor
  · intro heq
    cases hbefore : (snapshots ds₁).get? name with
    | none =>
        rw [hbefore, Option.map_none, Option.map_eq_none_iff] at heq
        exact heq
    | some d₁ =>
        rw [hbefore, Option.map_some, Option.map_eq_some_iff] at heq
        obtain ⟨d₂, hafter, heq⟩ := heq
        have hd₁ := mem_of_get?_snapshots hbefore
        have hd₂ := mem_of_get?_snapshots hafter
        -- Equal fingerprints are of equal bytes, and equal bytes are of one descriptor.
        have hencode := hfree.eq_of_fingerprint_eq (List.mem_map_of_mem hd₁)
          (List.mem_map_of_mem hd₂) heq.symm
        have hsame : d₁ = d₂ := Tracking.selfDelimiting_descriptor.eq_of_encode_eq
          (hfits d₁ (List.mem_append_left _ hd₁)) (hfits d₂ (List.mem_append_right _ hd₂)) hencode
        rw [hafter, hsame]
  · intro heq
    rw [heq]

end Manifest

/-! ## What is left out -/

/-- Descriptors are known from their encodings, and so are settings, if their lengths fit.  So an
entity is left out of the stale ones exactly where version, backend, settings and the snapshot of
the entity are what they were, if no encodings collide. -/
theorem omitted_iff_snapshot_unchanged :
    (∀ d₁ d₂ : Descriptor, d₁.Fits → d₂.Fits → d₁.encode = d₂.encode → d₁ = d₂) ∧
    (∀ s₁ s₂ : Settings, s₁.Fits → s₂.Fits → s₁.encode = s₂.encode → s₁ = s₂) ∧
    ∀ (m previous : Manifest) (ds₁ ds₂ : List Descriptor) (s₁ s₂ : Settings),
      previous.Records ds₁ s₁ → m.Records ds₂ s₂ →
      s₁.Fits → s₂.Fits → (∀ d ∈ ds₁ ++ ds₂, d.Fits) →
      CollisionFree [s₁.encode] [s₂.encode] →
      CollisionFree (ds₁.map Descriptor.encode) (ds₂.map Descriptor.encode) →
      ∀ name ∈ m.entities.names,
        (name ∉ m.stale (some previous) ↔
          (m.version = previous.version ∧ m.backend = previous.backend ∧ s₂ = s₁) ∧
            (snapshots ds₂).get? name = (snapshots ds₁).get? name) := by
  refine ⟨fun d₁ d₂ => Tracking.selfDelimiting_descriptor.eq_of_encode_eq,
    fun s₁ s₂ => selfDelimiting_settings.eq_of_encode_eq, ?_⟩
  intro m previous ds₁ ds₂ s₁ s₂ h₁ h₂ hs₁ hs₂ hds hfreeSettings hfree name hname
  obtain ⟨value, hvalue⟩ := Option.isSome_iff_exists.mp (NameMap.mem_names.mp hname)
  rw [← Manifest.invalidatesAll_eq_false_iff h₁ h₂ hs₁ hs₂ hfreeSettings,
    ← Manifest.get?_entities_eq_iff h₁ h₂ hds hfree, Manifest.mem_stale_iff, hvalue,
    eq_comm (a := some value)]
  simp only [Option.some.injEq, exists_eq_left', not_or, Bool.not_eq_true, ne_eq, not_not]

/-! ### Invoices by number -/

/-- Invoices that are known by the given key. -/
def invoices (key : String) : Descriptor where
  entity := "shop.Invoices"
  service := none
  primaryKey := [key]
  attributes := []
  identity := []
  collections := []
  binding := none

/-- Invoices with another key are stale, and orders that have stayed as they were are not. -/
theorem omitted_orders :
    let previous := Manifest.build .sqlite [orders, invoices "ID"] {} (startOf 2025)
    let m := Manifest.build .sqlite [orders, invoices "number"] {} (startOf 2026)
    "shop.Orders" ∉ m.stale (some previous) ∧ "shop.Invoices" ∈ m.stale (some previous) := by
  intro previous m
  have hiff := omitted_iff_snapshot_unchanged.2.2 m previous [orders, invoices "ID"]
    [orders, invoices "number"] {} {} (Manifest.records_build _ _ _ _)
    (Manifest.records_build _ _ _ _)
    (selfDelimiting_settings.fits_of_length (by decide))
    (selfDelimiting_settings.fits_of_length (by decide))
    (fun d hd => Tracking.selfDelimiting_descriptor.fits_of_length (by revert d; decide +kernel))
    (by decide +kernel) (by decide +kernel)
  constructor
  · exact (hiff "shop.Orders" (by decide)).mpr ⟨⟨rfl, rfl, rfl⟩, by decide +kernel⟩
  · refine Classical.not_not.mp fun hmem => ?_
    exact absurd ((hiff "shop.Invoices" (by decide)).mp hmem).2 (by decide +kernel)

end Deploy

end ChangeTracking
