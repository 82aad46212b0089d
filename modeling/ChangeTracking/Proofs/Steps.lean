import Mathlib.Data.List.Forall2

/-!
# Steps that may fail

What is known of the parts of a computation whose result is known.
-/

namespace ChangeTracking

variable {α β ε : Type}

theorem bind_eq_ok {x : Except ε α} {f : α → Except ε β} {b : β} :
    x >>= f = .ok b ↔ ∃ a, x = .ok a ∧ f a = .ok b := by
  cases x <;> simp [bind, Except.bind]

theorem map_eq_ok {x : Except ε α} {f : α → β} {b : β} :
    x.map f = .ok b ↔ ∃ a, x = .ok a ∧ f a = b := by
  cases x <;> simp [Except.map]

theorem bind_eq_error {x : Except ε α} {f : α → Except ε β} {e : ε} :
    x >>= f = .error e ↔ x = .error e ∨ ∃ a, x = .ok a ∧ f a = .error e := by
  cases x <;> simp [bind, Except.bind]

theorem map_eq_error {x : Except ε α} {f : α → β} {e : ε} :
    x.map f = .error e ↔ x = .error e := by
  cases x <;> simp [Except.map]

/-! ## Traversals -/

/-- A traversal takes every element to its result. -/
theorem mapM_eq_ok_iff {f : α → Except ε β} {xs : List α} {ys : List β} :
    xs.mapM f = .ok ys ↔ List.Forall₂ (fun x y => f x = .ok y) xs ys := by
  induction xs generalizing ys with
  | nil =>
      rw [List.mapM_nil, List.forall₂_nil_left_iff]
      exact ⟨fun h => (Except.ok.inj h).symm, fun h => congrArg _ h.symm⟩
  | cons x xs ih =>
      rw [List.mapM_cons, bind_eq_ok, List.forall₂_cons_left_iff]
      refine exists_congr fun y => ?_
      simp only [bind_eq_ok, ih]
      constructor
      · rintro ⟨hy, tail, htail, h⟩
        exact ⟨tail, hy, htail, (Except.ok.inj h).symm⟩
      · rintro ⟨tail, hy, htail, rfl⟩
        exact ⟨hy, tail, htail, rfl⟩

/-- What lists have in common place by place, an entry on the right has with one on the left. -/
theorem exists_of_mem_forall₂ {R : α → β → Prop} {xs : List α} {ys : List β}
    (h : List.Forall₂ R xs ys) {y : β} (hy : y ∈ ys) : ∃ x ∈ xs, R x y := by
  induction h with
  | nil => cases hy
  | cons hxy _ ih =>
      rcases List.mem_cons.mp hy with rfl | hy
      · exact ⟨_, List.mem_cons_self, hxy⟩
      · obtain ⟨x', hx', hrel⟩ := ih hy
        exact ⟨x', List.mem_cons_of_mem _ hx', hrel⟩

/-- What a traversal yields comes from one of the elements that it visits. -/
theorem exists_of_mem_mapM {f : α → Except ε β} {xs : List α} {ys : List β}
    (h : xs.mapM f = .ok ys) {y : β} (hy : y ∈ ys) : ∃ x ∈ xs, f x = .ok y :=
  exists_of_mem_forall₂ (mapM_eq_ok_iff.mp h) hy

/-- A traversal that succeeds yields something for each element that it visits. -/
theorem exists_mem_of_mapM {f : α → Except ε β} {xs : List α} {ys : List β}
    (h : xs.mapM f = .ok ys) {x : α} (hx : x ∈ xs) : ∃ y ∈ ys, f x = .ok y :=
  exists_of_mem_forall₂ (mapM_eq_ok_iff.mp h).flip hx

/-- A traversal fails where one of its steps does. -/
theorem exists_of_mapM_eq_error {f : α → Except ε β} {xs : List α} {e : ε}
    (h : xs.mapM f = .error e) : ∃ x ∈ xs, f x = .error e := by
  induction xs with
  | nil => cases h
  | cons x xs ih =>
      rw [List.mapM_cons] at h
      rcases bind_eq_error.mp h with hx | ⟨y, -, h⟩
      · exact ⟨x, List.mem_cons_self, hx⟩
      · rcases bind_eq_error.mp h with hxs | ⟨ys, -, h⟩
        · obtain ⟨x', hx', hfx⟩ := ih hxs
          exact ⟨x', List.mem_cons_of_mem _ hx', hfx⟩
        · cases h

theorem mapM_congr {f g : α → Except ε β} {xs : List α} (h : ∀ x ∈ xs, f x = g x) :
    xs.mapM f = xs.mapM g := by
  induction xs with
  | nil => simp only [List.mapM_nil]
  | cons x xs ih =>
      obtain ⟨hx, hxs⟩ := List.forall_mem_cons.mp h
      rw [List.mapM_cons, List.mapM_cons, hx, ih hxs]

/-- A traversal whose steps all succeed maps the list. -/
theorem mapM_eq_ok_map {f : α → Except ε β} {g : α → β} {xs : List α}
    (h : ∀ x ∈ xs, f x = .ok (g x)) : xs.mapM f = .ok (xs.map g) :=
  mapM_eq_ok_iff.mpr (List.forall₂_map_right_iff.mpr (List.forall₂_same.mpr h))

/-- What every step of a traversal keeps, the traversal keeps in order. -/
theorem map_eq_of_mapM {γ : Type} {f : α → Except ε β} {g : β → γ} {k : α → γ} {xs : List α}
    {ys : List β} (h : xs.mapM f = .ok ys) (hstep : ∀ x ∈ xs, ∀ y, f x = .ok y → g y = k x) :
    ys.map g = xs.map k := by
  have hboth := (List.forall₂_and_left _ _).mpr ⟨hstep, mapM_eq_ok_iff.mp h⟩
  have hsame : List.Forall₂ (· = ·) (xs.map k) (ys.map g) := by
    refine List.forall₂_map_left_iff.mpr (List.forall₂_map_right_iff.mpr ?_)
    exact hboth.imp fun x y hxy => (hxy.1 y hxy.2).symm
  rw [List.forall₂_eq_eq_eq] at hsame
  exact hsame.symm

/-- A traversal whose steps map the results of another one's maps its result. -/
theorem mapM_map_of_mapM {γ : Type} {f : α → Except ε β} {g : α → Except ε γ} {k : β → γ}
    {xs : List α} {ys : List β} (h : xs.mapM f = .ok ys)
    (hstep : ∀ x ∈ xs, ∀ y, f x = .ok y → g x = .ok (k y)) : xs.mapM g = .ok (ys.map k) := by
  have hboth := (List.forall₂_and_left _ _).mpr ⟨hstep, mapM_eq_ok_iff.mp h⟩
  refine mapM_eq_ok_iff.mpr (List.forall₂_map_right_iff.mpr (hboth.imp fun x y hxy => ?_))
  exact hxy.1 y hxy.2

/-- A traversal succeeds where every step does. -/
theorem exists_mapM_eq_ok {f : α → Except ε β} {xs : List α} (h : ∀ x ∈ xs, ∃ y, f x = .ok y) :
    ∃ ys, xs.mapM f = .ok ys := by
  induction xs with
  | nil => exact ⟨[], rfl⟩
  | cons x xs ih =>
      obtain ⟨hx, hxs⟩ := List.forall_mem_cons.mp h
      obtain ⟨y, hy⟩ := hx
      obtain ⟨ys, hys⟩ := ih hxs
      refine ⟨y :: ys, ?_⟩
      rw [List.mapM_cons, hy, hys]
      rfl

/-- An optional step succeeds where it does for the value that it is taken for. -/
theorem exists_optionMapM_eq_ok {f : α → Except ε β} {x : Option α}
    (h : ∀ a, x = some a → ∃ b, f a = .ok b) : ∃ y, x.mapM f = .ok y := by
  cases x with
  | none => exact ⟨none, rfl⟩
  | some a =>
      obtain ⟨b, hb⟩ := h a rfl
      refine ⟨some b, ?_⟩
      rw [Option.mapM_some, hb]
      rfl

/-- What an optional step yields comes from the value that it is taken for. -/
theorem exists_of_mapM_eq_some {f : α → Except ε β} {x : Option α} {b : β}
    (h : x.mapM f = .ok (some b)) : ∃ a, x = some a ∧ f a = .ok b := by
  cases x with
  | none => cases h
  | some a =>
      cases hf : f a with
      | error fault => simp [hf, Functor.map, Except.map] at h
      | ok b' =>
          simp [hf, Functor.map, Except.map] at h
          exact ⟨a, rfl, by rw [hf, h]⟩

/-- Where all steps of a traversal succeed, each of them does. -/
theorem eq_ok_of_forM {f : α → Except ε Unit} {xs : List α} (h : xs.forM f = .ok ()) :
    ∀ x ∈ xs, f x = .ok () := by
  induction xs with
  | nil => exact List.forall_mem_nil _
  | cons x xs ih =>
      rw [List.forM_eq_forM, List.forM_cons, bind_eq_ok] at h
      obtain ⟨_, hx, hrest⟩ := h
      exact List.forall_mem_cons.mpr ⟨hx, ih hrest⟩

end ChangeTracking
