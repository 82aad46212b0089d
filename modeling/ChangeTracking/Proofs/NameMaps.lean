import ChangeTracking.NameMap
import Mathlib.Data.List.Sort

/-!
# Maps made of entries

A map of entries holds nothing else, and where their names differ it holds them all.  A map is
known from its look-ups, and lists of names in order are known from their members.
-/

namespace ChangeTracking

namespace NameMap

variable {α β : Type}

/-- Put entries one after another, from the first to the last. -/
def insertAll (m : NameMap α) (entries : List (String × α)) : NameMap α :=
  entries.foldl (fun m e => m.insert e.1 e.2) m

theorem get?_insertAll_of_not_mem (m : NameMap α) {entries : List (String × α)} {name : String}
    (h : name ∉ entries.map Prod.fst) : (m.insertAll entries).get? name = m.get? name := by
  induction entries generalizing m with
  | nil => rfl
  | cons e entries ih =>
      rw [List.map_cons, List.mem_cons, not_or] at h
      rw [insertAll, List.foldl_cons, ← insertAll, ih _ h.2, get?_insert, if_neg h.1]

/-- What a look-up finds was put there, or stood there before. -/
theorem mem_of_get?_insertAll {m : NameMap α} {entries : List (String × α)} {name : String}
    {value : α} (h : (m.insertAll entries).get? name = some value) :
    (name, value) ∈ entries ∨ m.get? name = some value := by
  induction entries generalizing m with
  | nil => exact .inr h
  | cons e entries ih =>
      rcases ih h with hmem | hget
      · exact .inl (List.mem_cons_of_mem _ hmem)
      · rw [get?_insert] at hget
        split at hget
        · rename_i hname
          cases hget
          rw [hname]
          exact .inl List.mem_cons_self
        · exact .inr hget

/-- Of entries under different names none gets lost. -/
theorem get?_insertAll_of_mem (m : NameMap α) {entries : List (String × α)}
    (hnodup : (entries.map Prod.fst).Nodup) {name : String} {value : α}
    (h : (name, value) ∈ entries) : (m.insertAll entries).get? name = some value := by
  induction entries generalizing m with
  | nil => cases h
  | cons e entries ih =>
      obtain ⟨hfresh, hnodup⟩ := List.nodup_cons.mp hnodup
      rcases List.mem_cons.mp h with rfl | h
      · rw [insertAll, List.foldl_cons, ← insertAll, get?_insertAll_of_not_mem _ hfresh,
          get?_insert, if_pos rfl]
      · exact ih _ hnodup h

theorem contains_insertAll (m : NameMap α) (entries : List (String × α)) (name : String) :
    (m.insertAll entries).contains name =
      (m.contains name || (entries.map Prod.fst).contains name) := by
  induction entries generalizing m with
  | nil => exact (Bool.or_false _).symm
  | cons e entries ih =>
      rw [insertAll, List.foldl_cons, ← insertAll, ih, contains_insert, List.map_cons,
        List.contains_cons, Bool.or_assoc, Bool.or_left_comm]

/-- Changing what is put changes what is found. -/
theorem get?_insertAll_map (f : α → β) (m : NameMap α) (m' : NameMap β)
    (h : ∀ name, m'.get? name = (m.get? name).map f) (entries : List (String × α))
    (name : String) : (m'.insertAll (entries.map fun e => (e.1, f e.2))).get? name =
      ((m.insertAll entries).get? name).map f := by
  induction entries generalizing m m' with
  | nil => exact h name
  | cons e entries ih =>
      refine ih (m.insert e.1 e.2) _ fun name' => ?_
      rw [get?_insert, get?_insert, h]
      split <;> rfl

theorem get?_ofList_map (f : α → β) (entries : List (String × α)) (name : String) :
    (ofList (entries.map fun e => (e.1, f e.2))).get? name = ((ofList entries).get? name).map f :=
  get?_insertAll_map f empty empty (fun _ => rfl) entries name

theorem mem_of_get?_ofList {entries : List (String × α)} {name : String} {value : α}
    (h : (ofList entries).get? name = some value) : (name, value) ∈ entries :=
  (mem_of_get?_insertAll h).resolve_right (by simp)

theorem get?_ofList_of_mem {entries : List (String × α)} (hnodup : (entries.map Prod.fst).Nodup)
    {name : String} {value : α} (h : (name, value) ∈ entries) :
    (ofList entries).get? name = some value :=
  get?_insertAll_of_mem empty hnodup h

theorem eq_of_entries_eq {m m' : NameMap α} (h : m.entries = m'.entries) : m = m' := by
  cases m
  cases m'
  cases h
  rfl

theorem putAscending_of_lt {entries : List (String × α)} {name : String} (value : α)
    (h : ∀ e ∈ entries, e.1 < name) :
    putAscending name value entries = entries ++ [(name, value)] := by
  induction entries with
  | nil => rfl
  | cons e entries ih =>
      obtain ⟨hlt, hrest⟩ := List.forall_mem_cons.mp h
      rw [putAscending, if_neg (String.lt_asymm hlt), if_pos hlt, ih hrest, List.cons_append]

/-- Entries that follow in order are put behind the others. -/
theorem entries_insertAll {m : NameMap α} {entries : List (String × α)}
    (h : Ascending (m.entries ++ entries)) : (m.insertAll entries).entries = m.entries ++ entries := by
  induction entries generalizing m with
  | nil => rw [insertAll, List.foldl_nil, List.append_nil]
  | cons e entries ih =>
      have hput : (m.insert e.1 e.2).entries = m.entries ++ [e] :=
        putAscending_of_lt e.2 fun e' he' =>
          (List.pairwise_append.mp h).2.2 e' he' e List.mem_cons_self
      rw [insertAll, List.foldl_cons, ← insertAll, ih, hput, List.append_assoc,
        List.singleton_append]
      rwa [hput, List.append_assoc, List.singleton_append]

/-- A map is made of its entries. -/
theorem ofList_entries (m : NameMap α) : ofList m.entries = m :=
  eq_of_entries_eq (entries_insertAll (m := empty) m.ascending)

/-- Maps with the same look-ups have the same entries, since both list them in order. -/
theorem ext_get? {m m' : NameMap α} (h : ∀ name, m.get? name = m'.get? name) : m = m' := by
  have hirrefl : Std.Irrefl fun a b : String × α => a.1 < b.1 := ⟨fun a => String.lt_irrefl a.1⟩
  have hantisymm : Std.Antisymm fun a b : String × α => a.1 < b.1 :=
    ⟨fun _ _ hab hba => absurd hba (String.lt_asymm hab)⟩
  refine eq_of_entries_eq (List.Pairwise.eq_of_mem_iff m.ascending m'.ascending fun e => ?_)
  rw [← get?_eq_some_iff, ← get?_eq_some_iff, h]

theorem pairwise_names (m : NameMap α) : m.names.Pairwise (· < ·) :=
  List.pairwise_map.mpr m.ascending

end NameMap

theorem pairwise_sortedNames (names : List String) : (sortedNames names).Pairwise (· < ·) :=
  NameMap.pairwise_names _

theorem nodup_sortedNames (names : List String) : (sortedNames names).Nodup :=
  NameMap.nodup_names _

theorem mem_sortedNames {names : List String} {name : String} :
    name ∈ sortedNames names ↔ name ∈ names := by
  have hcontains := NameMap.contains_insertAll NameMap.empty
    (names.map fun name => (name, ())) name
  rw [List.map_map] at hcontains
  rw [sortedNames, NameMap.mem_names, NameMap.ofList, ← NameMap.insertAll, hcontains]
  simp [NameMap.contains, Function.comp_def]

/-- Of names in order, those in a map are all its names, if none of these is missing. -/
theorem filter_sortedNames {α : Type} (m : NameMap α) (names : List String) :
    (sortedNames (names ++ m.names)).filter m.contains = m.names := by
  refine List.Pairwise.eq_of_mem_iff ((pairwise_sortedNames _).filter _) m.pairwise_names
    fun name => ?_
  rw [List.mem_filter, mem_sortedNames, ← NameMap.mem_names, List.mem_append]
  exact ⟨And.right, fun h => ⟨.inr h, h⟩⟩

end ChangeTracking
