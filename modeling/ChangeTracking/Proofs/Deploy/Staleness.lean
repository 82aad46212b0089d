import ChangeTracking.Deploy.Manifest
import ChangeTracking.Proofs.Plan.PlannedSets
import ChangeTracking.Proofs.Plan.Readings
import ChangeTracking.Proofs.Script.Pieces
import ChangeTracking.Proofs.Tracking.Snapshots
import Mathlib.Control.Monad.Basic

/-!
# What is not stale

An entity that is not stale has the descriptor that it had before, provided that the
fingerprints tell the descriptors apart.  Its artifacts are what they were before wherever
the paths of the descriptor still read alike: a manifest knows paths by their wording, and
not by the columns that they lead to.
-/

namespace ChangeTracking.Deploy

open Schema (Element Entity Model)
open Plan (ReadAlike TriggerSet reading)
open Script (Generator)
open Tracking (Descriptor ModelAnalysis analyzeModel)

variable {backend : Backend} {settings : Settings} {now₁ now₂ : Time.Instant}
  {ds₁ ds₂ : List Descriptor} {d : Descriptor}

namespace Manifest

/-! ## Descriptors -/

/-- Manifests for one backend and one configuration are compared entity by entity. -/
theorem invalidatesAll_build :
    (build backend ds₂ settings now₂).invalidatesAll (build backend ds₁ settings now₁) = false := by
  simp [invalidatesAll, build]

/-- Stale is what has another fingerprint than before, or everything. -/
theorem mem_stale_iff {m previous : Manifest} {name : String} :
    name ∈ m.stale (some previous) ↔ ∃ value, m.entities.get? name = some value ∧
      (m.invalidatesAll previous = true ∨ previous.entities.get? name ≠ some value) := by
  rw [stale]
  split
  · rename_i hall
    simp [hall, NameMap.mem_names, NameMap.contains, Option.isSome_iff_exists]
  · rename_i hall
    simp only [hall, Bool.false_eq_true, false_or, List.mem_map, List.mem_filter, bne_iff_ne,
      NameMap.get?_eq_some_iff, Prod.exists, exists_and_right, exists_eq_right]

theorem mem_stale_build {name : String} :
    name ∈ (build backend ds₂ settings now₂).stale (some (build backend ds₁ settings now₁)) ↔
      ∃ value, (build backend ds₂ settings now₂).entities.get? name = some value ∧
        (build backend ds₁ settings now₁).entities.get? name ≠ some value := by
  rw [mem_stale_iff, invalidatesAll_build]
  simp only [Bool.false_eq_true, false_or]

/-- Nothing is stale where nothing has changed. -/
theorem stale_build_self :
    (build backend ds₁ settings now₂).stale (some (build backend ds₁ settings now₁)) = [] := by
  refine List.eq_nil_iff_forall_not_mem.mpr fun name hname => ?_
  obtain ⟨value, hvalue, hne⟩ := mem_stale_build.mp hname
  exact hne hvalue

theorem entities_build (backend : Backend) (ds : List Descriptor) (settings : Settings)
    (now : Time.Instant) :
    (build backend ds settings now).entities =
      .ofList (ds.map fun d => (d.entity, fingerprint d.encode)) := rfl

/-- What is not stale had the same fingerprint before. -/
theorem exists_of_not_stale (hnodup : (ds₂.map (·.entity)).Nodup) (hd : d ∈ ds₂)
    (hstale : d.entity ∉
      (build backend ds₂ settings now₂).stale (some (build backend ds₁ settings now₁))) :
    ∃ d₁ ∈ ds₁, fingerprint d₁.encode = fingerprint d.encode := by
  have hnow : (build backend ds₂ settings now₂).entities.get? d.entity =
      some (fingerprint d.encode) := by
    rw [entities_build]
    refine NameMap.get?_ofList_of_mem ?_ (List.mem_map_of_mem hd)
    rwa [List.map_map]
  have hbefore : (build backend ds₁ settings now₁).entities.get? d.entity =
      some (fingerprint d.encode) :=
    Classical.not_not.mp fun hne => hstale (mem_stale_build.mpr ⟨_, hnow, hne⟩)
  rw [entities_build] at hbefore
  obtain ⟨d₁, hd₁, heq⟩ := List.mem_map.mp (NameMap.mem_of_get?_ofList hbefore)
  exact ⟨d₁, hd₁, (Prod.mk.inj heq).2⟩

/-- Where no two encodings of descriptors have one fingerprint, what is not stale has the
descriptor that it had before. -/
theorem mem_of_not_stale (hnodup : (ds₂.map (·.entity)).Nodup) (hd : d ∈ ds₂)
    (hsize : d.encode.length < 2 ^ 64)
    (hfree : ∀ d₁ ∈ ds₁, fingerprint d₁.encode = fingerprint d.encode → d₁.encode = d.encode)
    (hstale : d.entity ∉
      (build backend ds₂ settings now₂).stale (some (build backend ds₁ settings now₁))) :
    d ∈ ds₁ := by
  obtain ⟨d₁, hd₁, hfingerprint⟩ := exists_of_not_stale hnodup hd hstale
  have heq : d = d₁ :=
    Tracking.selfDelimiting_descriptor.injective hsize (hfree d₁ hd₁ hfingerprint).symm
  rw [heq]
  exact hd₁

end Manifest

/-! ## A shop -/

/-- Orders that are labelled by the countries of their customers; countries have a key of the
given name and maybe more elements. -/
def shopEntities (key : String) (more : List Element) : NameMap Entity := .ofList [
  ("shop.Orders", {
    name := "shop.Orders"
    elements := [
      { name := "ID", isKey := true },
      { name := "customer", type := "cds.Association"
        association := some { kind := .reference, target := "shop.Customers", keys := ["ID"] }
        directive := some (.paths ["customer.country.name"]) }] }),
  ("shop.Customers", {
    name := "shop.Customers"
    elements := [
      { name := "ID", isKey := true },
      { name := "country", type := "cds.Association"
        association := some {
          kind := .reference, target := "shop.Countries", keys := [key] } }] }),
  ("shop.Countries", {
    name := "shop.Countries"
    elements := [{ name := key, isKey := true }, { name := "name" }] ++ more })]

/-- Countries are known by their codes. -/
def codeShop : Model := ⟨shopEntities "code" [], by decide⟩

/-- Countries have a currency besides. -/
def currencyShop : Model := ⟨shopEntities "code" [{ name := "currency" }], by decide⟩

/-- Countries are known by a key of another name. -/
def isoShop : Model := ⟨shopEntities "iso" [], by decide⟩

/-- The descriptor of the orders; all the shops have it. -/
def orders : Descriptor where
  entity := "shop.Orders"
  service := none
  primaryKey := ["ID"]
  attributes := [{
    name := "customer"
    type := "cds.Association"
    valueClass := .ofDeclared "cds.Association"
    relation := .reference
    target := some "shop.Customers"
    foreignKeys := ["customer_ID"]
    onTerms := []
    labelPaths := ["customer.country.name"] }]
  identity := []
  collections := []
  binding := none

theorem analyzeModel_shop :
    ∀ m ∈ [codeShop, currencyShop, isoShop], analyzeModel m {} = .ok ⟨[⟨orders, []⟩], []⟩ := by
  decide +kernel

/-- The generator for SQLite. -/
def sqlite : Generator := ⟨.sqlite, false⟩

/-- The start of a year. -/
def startOf (year : Int) : Time.Instant := ⟨⟨year, 1, 1⟩, 0, 0, 0⟩

theorem entityArtifacts_of_planEntity {g : Generator} {m : Model} {own : Option TriggerSet}
    (hcollections : d.collections = []) (h : Plan.planEntity m d settings = .ok own) :
    g.entityArtifacts m d settings = .ok (own.toList.flatMap g.artifacts) := by
  rw [Generator.entityArtifacts, h, Plan.planCollections, hcollections]
  simp [bind, Except.bind, pure, Except.pure]

/-- The characters of the trigger that SQLite runs on new orders. -/
def orderTrigger (m : Model) : Option (List Char) :=
  match Plan.planEntity m orders {} with
  | .ok (some set) => some (Script.Sqlite.triggerChars sqlite.dialect set .create)
  | _ => none

/-- The trigger on new orders is the first artifact. -/
theorem entityArtifacts_orders {m : Model} {chars : List Char} (h : orderTrigger m = some chars) :
    ∃ first rest, sqlite.entityArtifacts m orders {} = .ok (first :: rest) ∧
      first.source.toList = chars := by
  unfold orderTrigger at h
  split at h
  · rename_i set hplan
    cases h
    have hoperations : set.operations = [.create, .update, .delete] :=
      Plan.operations_of_planEntity hplan
    have hartifacts : sqlite.entityArtifacts m orders {} =
        .ok (sqlite.trigger set .create :: [.update, .delete].map (sqlite.trigger set)) := by
      rw [entityArtifacts_of_planEntity rfl hplan, Option.toList_some, List.flatMap_singleton,
        ← List.map_cons, ← hoperations]
      rfl
    exact ⟨_, _, hartifacts, Script.Sqlite.toList_source_trigger sqlite.dialect set .create⟩
  · cases h

/-- A new name of the key of countries reaches the trigger on orders. -/
theorem orderTrigger_ne : orderTrigger codeShop ≠ orderTrigger isoShop := by
  decide +kernel

/-! ## Artifacts -/

/-- What is not stale has the descriptor that it had before.  Where the paths of this
descriptor lead to the same columns in both models, its artifacts are the same too. -/
theorem artifacts_of_not_stale {m₁ m₂ : Model} {a₁ a₂ : ModelAnalysis}
    (h₁ : analyzeModel m₁ settings = .ok a₁) (h₂ : analyzeModel m₂ settings = .ok a₂)
    (hd : d ∈ a₂.descriptors) (hsize : d.encode.length < 2 ^ 64)
    (hfree : ∀ d₁ ∈ a₁.descriptors, fingerprint d₁.encode = fingerprint d.encode →
      d₁.encode = d.encode)
    (g : Generator)
    (hstale : d.entity ∉ (Manifest.build g.backend a₂.descriptors settings now₂).stale
      (some (Manifest.build g.backend a₁.descriptors settings now₁)))
    (hpaths : ∀ p ∈ Plan.paths d, reading m₁ p.1 p.2 = reading m₂ p.1 p.2) :
    d ∈ a₁.descriptors ∧
      g.entityArtifacts m₁ d settings = g.entityArtifacts m₂ d settings := by
  have hbefore : d ∈ a₁.descriptors :=
    Manifest.mem_of_not_stale (Tracking.nodup_descriptors h₂) hd hsize hfree hstale
  have halike : ReadAlike m₁ m₂ d := by
    refine ⟨fun table htable => ?_, hpaths⟩
    obtain ⟨e₁, he₁⟩ := Tracking.tables_of_mem_descriptors h₁ hbefore table htable
    obtain ⟨e₂, he₂⟩ := Tracking.tables_of_mem_descriptors h₂ hd table htable
    exact ⟨e₁, e₂, he₁, he₂⟩
  exact ⟨hbefore, halike.entityArtifacts_eq g settings⟩

/-- No order is stale once countries have a currency, and rightly so. -/
theorem currencyShop_keeps_artifacts :
    ∃ a₁ a₂, analyzeModel codeShop {} = .ok a₁ ∧ analyzeModel currencyShop {} = .ok a₂ ∧
      orders ∈ a₂.descriptors ∧
      orders.entity ∉ (Manifest.build .sqlite a₂.descriptors {} (startOf 2026)).stale
        (some (Manifest.build .sqlite a₁.descriptors {} (startOf 2025))) ∧
      orders ∈ a₁.descriptors ∧
      sqlite.entityArtifacts codeShop orders {} = sqlite.entityArtifacts currencyShop orders {} := by
  have hstale : orders.entity ∉ (Manifest.build .sqlite [orders] {} (startOf 2026)).stale
      (some (Manifest.build .sqlite [orders] {} (startOf 2025))) := by
    rw [Manifest.stale_build_self]
    exact List.not_mem_nil
  have hpaths : ∀ p ∈ Plan.paths orders,
      reading codeShop p.1 p.2 = reading currencyShop p.1 p.2 := by
    decide +kernel
  have hcode := analyzeModel_shop codeShop (by simp)
  have hcurrency := analyzeModel_shop currencyShop (by simp)
  refine ⟨_, _, hcode, hcurrency, List.mem_cons_self, hstale,
    artifacts_of_not_stale hcode hcurrency List.mem_cons_self (by decide +kernel)
      (fun d₁ hd₁ _ => ?_) sqlite hstale hpaths⟩
  rw [List.mem_singleton.mp hd₁]

/-- No order is stale once the countries are known by another key, although the trigger on
orders looks for the old one. -/
theorem stale_misses_changed_key :
    ∃ a₁ a₂, analyzeModel codeShop {} = .ok a₁ ∧ analyzeModel isoShop {} = .ok a₂ ∧
      a₁.descriptors = [orders] ∧ a₂.descriptors = [orders] ∧
      (∀ now₁ now₂, (Manifest.build .sqlite a₂.descriptors {} now₂).stale
        (some (Manifest.build .sqlite a₁.descriptors {} now₁)) = []) ∧
      sqlite.entityArtifacts codeShop orders {} ≠ sqlite.entityArtifacts isoShop orders {} := by
  refine ⟨_, _, analyzeModel_shop codeShop (by simp), analyzeModel_shop isoShop (by simp),
    rfl, rfl, fun _ _ => Manifest.stale_build_self, fun heq => ?_⟩
  have hcode : (orderTrigger codeShop).isSome = true := by decide +kernel
  have hiso : (orderTrigger isoShop).isSome = true := by decide +kernel
  obtain ⟨chars₁, hchars₁⟩ := Option.isSome_iff_exists.mp hcode
  obtain ⟨chars₂, hchars₂⟩ := Option.isSome_iff_exists.mp hiso
  obtain ⟨first₁, rest₁, hok₁, hsource₁⟩ := entityArtifacts_orders hchars₁
  obtain ⟨first₂, rest₂, hok₂, hsource₂⟩ := entityArtifacts_orders hchars₂
  rw [hok₁, hok₂] at heq
  cases heq
  apply orderTrigger_ne
  rw [hchars₁, hchars₂, ← hsource₁, ← hsource₂]

end ChangeTracking.Deploy
