import ChangeTracking.Script.Registry
import Mathlib.Data.List.Induction

/-!
# Registered generators

A name finds the generator that was registered last under it, in any letter case, or under the
own name of the backend that it denotes.  Registering does not know of the other names of
backends: what is registered under one of them is listed and never found.
-/

namespace ChangeTracking

namespace Backend

/-! ## Names of backends -/

/-- The names that backends answer to besides their own ones. -/
def byNames : List String := (aliases.filter fun e => e.1 != e.2.name).map Prod.fst

/-- The names are alike up to letter case, or one backend answers to both. -/
def SameName (name name' : String) : Prop :=
  name.toLower = name'.toLower ∨
    ∃ backend, ofName? name = some backend ∧ ofName? name' = some backend

variable {name name' : String} {backend : Backend}

theorem ofName?_congr (h : name.toLower = name'.toLower) : ofName? name = ofName? name' := by
  rw [ofName?, ofName?, h]

theorem ofName?_eq_some_iff : ofName? name = some backend ↔ (name.toLower, backend) ∈ aliases := by
  have hlookup : ∀ e ∈ aliases, aliases.lookup e.1 = some e.2 := by decide
  constructor
  · intro h
    obtain ⟨before, after, heq, -⟩ := List.lookup_eq_some_iff.mp h
    rw [heq]
    exact List.mem_append_right _ List.mem_cons_self
  · exact hlookup _

theorem mem_aliases_name (backend : Backend) : (backend.name, backend) ∈ aliases := by
  cases backend <;> decide

theorem toLower_name (backend : Backend) : backend.name.toLower = backend.name := by
  rw [← String.toList_inj, Text.toList_toLower]
  cases backend <;> decide

theorem ofName?_name (backend : Backend) : ofName? backend.name = some backend := by
  rw [ofName?_eq_some_iff, toLower_name]
  exact mem_aliases_name backend

theorem name_injective : Function.Injective Backend.name := fun backend backend' h =>
  Option.some.inj (by rw [← ofName?_name backend, h, ofName?_name])

/-- A by-name denotes a backend that calls itself something else. -/
theorem mem_byNames_iff : name.toLower ∈ byNames ↔
    ∃ backend, ofName? name = some backend ∧ backend.name ≠ name.toLower := by
  simp only [byNames, List.mem_map, List.mem_filter, bne_iff_ne, ofName?_eq_some_iff]
  constructor
  · rintro ⟨e, ⟨hmem, hne⟩, heq⟩
    rw [← heq]
    exact ⟨e.2, hmem, hne.symm⟩
  · rintro ⟨backend, hmem, hne⟩
    exact ⟨_, ⟨hmem, hne.symm⟩, rfl⟩

end Backend

namespace Script.Registry

open Backend (SameName byNames ofName? mem_byNames_iff)

variable {r : Registry} {n m : String} {g : Generator}

/-! ## One registration -/

/-- Under the name `m` is found what is registered under the name `n`. -/
def Reaches (n m : String) : Prop := lookupName m = n.toLower

instance (n m : String) : Decidable (Reaches n m) := inferInstanceAs (Decidable (_ = _))

/-- Looking up and registering agree on names that are alike, unless a by-name is registered. -/
theorem reaches_iff : Reaches n m ↔ SameName n m ∧ n.toLower ∉ byNames := by
  rw [Reaches, lookupName, SameName, mem_byNames_iff]
  -- Without a backend the name is looked up as it is, otherwise under the backend's own name.
  cases hm : ofName? m with
  | none =>
      constructor
      · intro heq
        refine ⟨.inl heq.symm, ?_⟩
        rintro ⟨backend, hn, -⟩
        rw [Backend.ofName?_congr heq.symm, hm] at hn
        cases hn
      · rintro ⟨heq | ⟨backend, -, hbackend⟩, -⟩
        · exact heq.symm
        · cases hbackend
  | some backend =>
      dsimp only
      constructor
      · intro heq
        have hn : ofName? n = some backend := by
          rw [Backend.ofName?_eq_some_iff, ← heq]
          exact Backend.mem_aliases_name backend
        refine ⟨.inr ⟨backend, hn, rfl⟩, ?_⟩
        rintro ⟨backend', hn', hne⟩
        rw [hn, Option.some.injEq] at hn'
        exact hne (hn' ▸ heq)
      · rintro ⟨halike, hown⟩
        have hn : ofName? n = some backend := by
          rcases halike with heq | ⟨backend', hn, hbackend⟩
          · rw [Backend.ofName?_congr heq, hm]
          · rw [hn, hbackend]
        exact Classical.not_not.mp fun hne => hown ⟨backend, hn, hne⟩

theorem get?_register (r : Registry) (n : String) (g : Generator) (m : String) :
    (r.register n g).get? m = if Reaches n m then some g else r.get? m :=
  NameMap.get?_insert r.generators n.toLower (lookupName m) g

/-- A by-name is looked up as the backend that it denotes. -/
theorem get?_name {backend : Backend} (h : ofName? n = some backend) :
    r.get? n = r.get? backend.name := by
  rw [get?, get?, lookupName, lookupName, h, Backend.ofName?_name]

/-! ## All registrations -/

/-- The registry made by registering one generator after another. -/
def ofCalls (calls : List (String × Generator)) : Registry :=
  calls.foldl (fun r call => r.register call.1 call.2) {}

theorem ofCalls_concat (calls : List (String × Generator)) (n : String) (g : Generator) :
    ofCalls (calls ++ [(n, g)]) = (ofCalls calls).register n g := by
  rw [ofCalls, List.foldl_append, List.foldl_cons, List.foldl_nil, ← ofCalls]

/-- What a name finds is what was registered last under a name that reaches it. -/
theorem get?_ofCalls (calls : List (String × Generator)) (m : String) :
    (ofCalls calls).get? m =
      (calls.reverse.find? fun call => decide (Reaches call.1 m)).map Prod.snd := by
  induction calls using List.reverseRecOn with
  | nil => rfl
  | append_singleton calls call ih =>
      rw [ofCalls_concat, get?_register, List.reverse_concat, List.find?_cons, ih]
      by_cases h : Reaches call.1 m <;> simp [h]

/-- The generators of all backends, registered one after another under their own names. -/
def builtinCalls (quoted : Bool) : List (String × Generator) :=
  Backend.all.map fun backend => (backend.name, ⟨backend, quoted⟩)

theorem builtin_eq (settings : Settings) :
    builtin settings = ofCalls (builtinCalls settings.quotedIdentifiers) := rfl

/-- What is registered under the own name of a backend is found under all its names. -/
theorem reaches_name_iff {backend : Backend} :
    Reaches backend.name m ↔ ofName? m = some backend := by
  rw [Reaches, lookupName, Backend.toLower_name]
  cases hm : ofName? m with
  | none =>
      refine iff_of_false (fun heq => ?_) (by simp)
      dsimp only at heq
      have hname : ofName? m = some backend := by
        rw [Backend.ofName?_eq_some_iff, heq]
        exact Backend.mem_aliases_name backend
      rw [hm] at hname
      cases hname
  | some backend' => exact Backend.name_injective.eq_iff.trans (Option.some_inj).symm

/-- The built-in registry knows the names of backends and no others. -/
theorem get?_builtin (settings : Settings) (m : String) : (builtin settings).get? m =
    (ofName? m).map fun backend => ⟨backend, settings.quotedIdentifiers⟩ := by
  rw [builtin_eq, get?_ofCalls, builtinCalls, ← List.map_reverse, List.find?_map, Option.map_map]
  simp only [Function.comp_def, reaches_name_iff]
  cases ofName? m with
  | none => rfl
  | some backend => cases backend <;> rfl

/-- A registry is a map up to the case of letters and the names of backends, except where a by-name
is registered.  Whatever has been registered before, a generator under any other name is found
under this name and all that are alike, and no further name finds anything else than before.  A
generator under a by-name is never found: its name still finds what is registered under the own
name of the backend. -/
theorem get?_register_ofCalls (calls : List (String × Generator)) (n : String) (g : Generator) :
    (n.toLower ∉ byNames →
        ∀ m, SameName n m → ((ofCalls calls).register n g).get? m = some g) ∧
      (n.toLower ∈ byNames →
        (∀ m, ((ofCalls calls).register n g).get? m = (ofCalls calls).get? m) ∧
        ∃ backend, ofName? n = some backend ∧
          ((ofCalls calls).register n g).get? n = (ofCalls calls).get? backend.name) ∧
      (∀ m, ¬ SameName n m → ((ofCalls calls).register n g).get? m = (ofCalls calls).get? m) ∧
      ∀ m, (ofCalls calls).get? m =
        (calls.reverse.find? fun call => decide (Reaches call.1 m)).map Prod.snd := by
  refine ⟨fun hown m halike => ?_, fun hby => ?_, fun m hother => ?_, get?_ofCalls calls⟩
  · rw [get?_register, if_pos (reaches_iff.mpr ⟨halike, hown⟩)]
  · have hkeeps (m : String) :
        ((ofCalls calls).register n g).get? m = (ofCalls calls).get? m := by
      rw [get?_register, if_neg fun h => (reaches_iff.mp h).2 hby]
    obtain ⟨backend, hbackend, -⟩ := mem_byNames_iff.mp hby
    exact ⟨hkeeps, backend, hbackend, by rw [hkeeps, get?_name hbackend]⟩
  · rw [get?_register, if_neg fun h => hother (reaches_iff.mp h).1]

/-- A generator of one's own is found in any letter case and hides no other; one for PostgreSQL
is not found under the short name. -/
theorem get?_register_embedded :
    "Embedded".toLower ∉ byNames ∧ "PG".toLower ∈ byNames ∧
      ((ofCalls (builtinCalls false)).register "Embedded" ⟨.sqlite, true⟩).get? "EMBEDDED" =
        some ⟨.sqlite, true⟩ ∧
      ((ofCalls (builtinCalls false)).register "Embedded" ⟨.sqlite, true⟩).get? "H2" =
        (ofCalls (builtinCalls false)).get? "H2" ∧
      ((ofCalls (builtinCalls false)).register "PG" ⟨.postgres, true⟩).get? "pg" =
        (ofCalls (builtinCalls false)).get? "pg" := by
  have hembedded : "Embedded".toLower = "embedded" := Text.toLower_eq (by decide)
  have hpg : "PG".toLower = "pg" := Text.toLower_eq (by decide)
  have hown : "Embedded".toLower ∉ byNames := by rw [hembedded]; decide
  have hby : "PG".toLower ∈ byNames := by rw [hpg]; decide
  have halike : SameName "Embedded" "EMBEDDED" :=
    .inl (hembedded.trans (Text.toLower_eq (by decide)).symm)
  have hother : ¬ SameName "Embedded" "H2" := by
    have hh2 : "H2".toLower = "h2" := Text.toLower_eq (by decide)
    have hnone : ofName? "Embedded" = none := by rw [ofName?, hembedded]; decide
    rintro (heq | ⟨backend, hbackend, -⟩)
    · rw [hembedded, hh2] at heq
      exact absurd heq (by decide)
    · rw [hnone] at hbackend
      cases hbackend
  have hput := get?_register_ofCalls (builtinCalls false) "Embedded" ⟨.sqlite, true⟩
  have hput' := get?_register_ofCalls (builtinCalls false) "PG" ⟨.postgres, true⟩
  exact ⟨hown, hby, hput.1 hown "EMBEDDED" halike, hput.2.2.1 "H2" hother, (hput'.2.1 hby).1 "pg"⟩

/-- A generator that is registered under a by-name is listed, but not found under it. -/
theorem get?_register_pg :
    (({} : Registry).register "pg" ⟨.sqlite, true⟩).names = ["pg"] ∧
      (({} : Registry).register "pg" ⟨.sqlite, true⟩).get? "pg" = none ∧
      ((ofCalls (builtinCalls false)).register "pg" ⟨.sqlite, true⟩).get? "pg" =
        some ⟨.postgres, false⟩ := by
  decide +kernel

end Script.Registry

end ChangeTracking
