/-!
# Maps keyed by names

A finite map from names to values that lists its entries in ascending order of the
names, by code point.  Since the order is part of the type, two maps with the same
look-ups are equal, and every traversal is reproducible.
-/

namespace ChangeTracking

/-- Entries in strictly ascending order of their names. -/
def Ascending {α : Type} (entries : List (String × α)) : Prop :=
  entries.Pairwise fun a b => a.1 < b.1

/-- Put a value under a name, replacing the one that is there. -/
def putAscending {α : Type} (name : String) (value : α) :
    List (String × α) → List (String × α)
  | [] => [(name, value)]
  | (key, old) :: rest =>
      if name < key then (name, value) :: (key, old) :: rest
      else if key < name then (key, old) :: putAscending name value rest
      else (name, value) :: rest

theorem mem_putAscending {α : Type} {name : String} {value : α}
    {entries : List (String × α)} {e : String × α}
    (h : e ∈ putAscending name value entries) : e = (name, value) ∨ e ∈ entries := by
  induction entries with
  | nil => simpa [putAscending] using h
  | cons head rest ih =>
      obtain ⟨key, old⟩ := head
      simp only [putAscending] at h
      split at h
      · simpa using h
      · split at h
        · rcases List.mem_cons.1 h with rfl | h
          · simp
          · rcases ih h with h | h <;> simp [h]
        · rcases List.mem_cons.1 h with rfl | h <;> simp [*]

private theorem name_eq_of_not_lt {a b : String} (h₁ : ¬ a < b) (h₂ : ¬ b < a) : a = b :=
  String.le_antisymm (String.not_lt.1 h₂) (String.not_lt.1 h₁)

theorem ascending_putAscending {α : Type} (name : String) (value : α)
    {entries : List (String × α)} (h : Ascending entries) :
    Ascending (putAscending name value entries) := by
  induction entries with
  | nil => simp [putAscending, Ascending]
  | cons head rest ih =>
      obtain ⟨key, old⟩ := head
      have hhead := (List.pairwise_cons.1 h).1
      have hrest : Ascending rest := (List.pairwise_cons.1 h).2
      simp only [putAscending]
      split
      · rename_i hlt
        refine List.pairwise_cons.2 ⟨fun e he => ?_, h⟩
        rcases List.mem_cons.1 he with rfl | he
        · exact hlt
        · exact String.lt_trans hlt (hhead e he)
      · split
        · rename_i hlt
          refine List.pairwise_cons.2 ⟨fun e he => ?_, ih hrest⟩
          rcases mem_putAscending he with rfl | he
          · exact hlt
          · exact hhead e he
        · rename_i h₁ h₂
          obtain rfl := name_eq_of_not_lt h₁ h₂
          exact List.pairwise_cons.2 ⟨fun e he => hhead e he, hrest⟩

theorem lookup_entry {α : Type} (name name' : String) (value : α) (rest : List (String × α)) :
    ((name, value) :: rest).lookup name' =
      if name' = name then some value else rest.lookup name' := by
  by_cases h : name' = name
  · simp [h]
  · simp [List.lookup_cons, h, beq_eq_false_iff_ne.mpr h]

theorem lookup_putAscending {α : Type} (name name' : String) (value : α)
    (entries : List (String × α)) :
    (putAscending name value entries).lookup name' =
      if name' = name then some value else entries.lookup name' := by
  -- The entry goes in front of the first greater name, or in the place of its own.
  induction entries with
  | nil => exact lookup_entry name name' value []
  | cons head rest ih =>
      obtain ⟨key, old⟩ := head
      simp only [putAscending]
      split
      · exact lookup_entry name name' value _
      · split
        · rename_i hlt
          rw [lookup_entry, lookup_entry, ih]
          by_cases hkey : name' = key
          · subst hkey
            have hne : name' ≠ name := by
              rintro rfl
              exact String.lt_irrefl _ hlt
            rw [if_pos rfl, if_neg hne, if_pos rfl]
          · rw [if_neg hkey, if_neg hkey]
        · rename_i h₁ h₂
          obtain rfl := name_eq_of_not_lt h₁ h₂
          rw [lookup_entry, lookup_entry]
          split <;> rfl

/-- A finite map keyed by names. -/
structure NameMap (α : Type) where
  entries : List (String × α)
  ascending : Ascending entries
  deriving Repr

instance {α : Type} [DecidableEq α] : DecidableEq (NameMap α) := fun a b =>
  decidable_of_iff (a.entries = b.entries) (by cases a; cases b; simp)

namespace NameMap

variable {α β : Type}

def empty : NameMap α := ⟨[], List.Pairwise.nil⟩

def get? (m : NameMap α) (name : String) : Option α := m.entries.lookup name

/-- Whether there is a value under the name. -/
def contains (m : NameMap α) (name : String) : Bool := (m.get? name).isSome

/-- Put a value under a name, replacing the one that is there. -/
def insert (m : NameMap α) (name : String) (value : α) : NameMap α :=
  ⟨putAscending name value m.entries, ascending_putAscending name value m.ascending⟩

/-- The map of the given entries; of several under one name the last one stays. -/
def ofList (entries : List (String × α)) : NameMap α :=
  entries.foldl (fun m e => m.insert e.1 e.2) empty

/-- All names, ascending. -/
def names (m : NameMap α) : List String := m.entries.map Prod.fst

/-- All values in the order of their names. -/
def values (m : NameMap α) : List α := m.entries.map Prod.snd

/-- Change every value, knowing its name. -/
def map (f : String → α → β) (m : NameMap α) : NameMap β :=
  ⟨m.entries.map fun e => (e.1, f e.1 e.2), by
    simpa [Ascending, List.pairwise_map] using m.ascending⟩

@[simp] theorem get?_empty (name : String) : (empty : NameMap α).get? name = none := rfl

theorem get?_insert (m : NameMap α) (name name' : String) (value : α) :
    (m.insert name value).get? name' = if name' = name then some value else m.get? name' :=
  lookup_putAscending name name' value m.entries

theorem contains_insert (m : NameMap α) (name name' : String) (value : α) :
    (m.insert name value).contains name' = (name' == name || m.contains name') := by
  rw [contains, get?_insert]
  by_cases h : name' = name <;> simp [h, contains]

theorem mem_names {m : NameMap α} {name : String} : name ∈ m.names ↔ m.contains name = true := by
  simp [names, contains, get?]

/-- A look-up finds what is registered, and nothing else. -/
theorem get?_eq_some_iff {m : NameMap α} {name : String} {value : α} :
    m.get? name = some value ↔ (name, value) ∈ m.entries := by
  constructor
  · intro h
    obtain ⟨before, after, heq, -⟩ := List.lookup_eq_some_iff.mp h
    rw [heq]
    exact List.mem_append_right _ List.mem_cons_self
  · intro h
    obtain ⟨before, after, heq⟩ := List.append_of_mem h
    refine List.lookup_eq_some_iff.mpr ⟨before, after, heq, fun e he => ?_⟩
    have hascending := m.ascending
    rw [heq] at hascending
    have hlt := (List.pairwise_append.mp hascending).2.2 e he (name, value) List.mem_cons_self
    refine bne_iff_ne.mpr fun hname => ?_
    rw [hname] at hlt
    exact String.lt_irrefl _ hlt

theorem nodup_names (m : NameMap α) : m.names.Nodup := by
  refine List.pairwise_map.mpr (m.ascending.imp ?_)
  intro a b hlt heq
  rw [heq] at hlt
  exact String.lt_irrefl _ hlt

end NameMap

/-- Names in ascending order without repetition. -/
def sortedNames (names : List String) : List String :=
  (NameMap.ofList (names.map fun name => (name, ()))).names

end ChangeTracking
