import ChangeTracking.Proofs.Firing.Guards

/-!
# What a value depends on

Two questions about an expression are answered from its shape alone: whether it reads other
records, and which columns decide whether its value is there.  Each answer is given for exactly
the expressions of one shape.  The main statement is that both answers hold in every scene: a value
is missing exactly when one of the columns is, and without look-ups it is the same whatever the
tables hold.
-/

namespace ChangeTracking.Plan

/-- The expression itself reads another record. -/
def IsLookup : Expr → Prop
  | .lookup .. => True
  | _ => False

/-- The expression itself is a column, a key or a text made of another value. -/
def IsKeyPart : Expr → Prop
  | .column .. | .keyJoin _ | .encoded .. => True
  | _ => False

namespace Expr

theorem anyLookup_eq_false_iff {parts : List Expr} :
    anyLookup parts = false ↔ ∀ e ∈ parts, e.hasLookup = false := by
  induction parts with
  | nil => simp [anyLookup]
  | cons e parts ih => simp [anyLookup, ih]

/-- An expression is said to have no look-up exactly if there is none at any depth. -/
theorem hasLookup_eq_false_iff (e : Expr) :
    e.hasLookup = false ↔ e.Everywhere fun t => ¬ IsLookup t := by
  induction e using Expr.inductOn with
  | lookup entity name filters ih => simp [hasLookup, IsLookup]
  | keyJoin parts ih => simp [hasLookup, IsLookup, anyLookup_eq_false_iff, forall₂_congr ih]
  | listJoin parts ih => simp [hasLookup, IsLookup, anyLookup_eq_false_iff, forall₂_congr ih]
  | firstOf parts ih => simp [hasLookup, IsLookup, anyLookup_eq_false_iff, forall₂_congr ih]
  | encoded rule inner ih => simp [hasLookup, IsLookup, ih]
  | _ => simp [hasLookup, IsLookup]

theorem isSome_allNullColumns {parts : List Expr} :
    (allNullColumns parts).isSome = true ↔ ∀ e ∈ parts, e.nullColumns.isSome = true := by
  induction parts with
  | nil => simp [allNullColumns]
  | cons e parts ih =>
      rw [List.forall_mem_cons, ← ih, allNullColumns]
      cases e.nullColumns <;> simp

/-- Columns are named exactly for what keys, texts and columns make at every depth. -/
theorem isSome_nullColumns_iff (e : Expr) :
    e.nullColumns.isSome = true ↔ e.Everywhere IsKeyPart := by
  induction e using Expr.inductOn with
  | keyJoin parts ih =>
      simp only [nullColumns, isSome_allNullColumns, everywhere_keyJoin, IsKeyPart, true_and,
        forall₂_congr ih]
  | encoded rule inner ih => simp [nullColumns, IsKeyPart, ih]
  | _ => simp [nullColumns, IsKeyPart]

end Expr

end ChangeTracking.Plan

namespace ChangeTracking.Firing

open Plan (Expr IsKeyPart IsLookup RowRole)

namespace Scene

/-! ## Missing values -/

/-- What the row in the role holds in the column. -/
def cell (s : Scene) (c : RowRole × String) : Option String :=
  (s.row c.1).bind fun row => row.get? c.2

theorem hasColumn_eq_isSome_cell (s : Scene) (c : RowRole × String) :
    s.hasColumn c = (s.cell c).isSome := by
  rw [hasColumn, value, cell]

/-- Where columns decide whether a value is there, it is missing exactly when one of them is. -/
theorem value_eq_none_iff (s : Scene) {e : Expr} {columns : List (RowRole × String)}
    (h : e.nullColumns = some columns) : s.value e = none ↔ ∃ c ∈ columns, s.cell c = none := by
  have hsome := isSome_value_of_nullColumns s e columns h
  rw [← Option.not_isSome_iff_eq_none, hsome, Bool.not_eq_true, List.all_eq_false]
  simp [hasColumn_eq_isSome_cell]

/-! ## Values without look-ups -/

variable {s t : Scene}

/-- An expression without look-ups says the same of the same rows in the same locale. -/
theorem value_eq_of_hasLookup_eq_false (hrows : ∀ role, s.row role = t.row role)
    (hlocale : s.store.locale = t.store.locale) {e : Expr} (h : e.hasLookup = false) :
    s.value e = t.value e := by
  rw [Expr.hasLookup_eq_false_iff] at h
  induction e using Expr.inductOn with
  | null => rfl
  | text value => rfl
  | column role name => rw [value, value, hrows]
  | ofLocal name => rfl
  | locale => exact hlocale
  | lookup entity name filters ih => exact absurd trivial h.self
  | keyJoin parts ih =>
      have hparts := (Expr.everywhere_keyJoin.mp h).2
      have hvalues := values_congr fun e he => ih e he (hparts e he)
      rw [List.map_id'] at hvalues
      rw [value, value, hvalues]
  | listJoin parts ih =>
      have hparts := (Expr.everywhere_listJoin.mp h).2
      have hvalues := values_congr fun e he => ih e he (hparts e he)
      rw [List.map_id'] at hvalues
      rw [value, value, hvalues]
  | firstOf parts ih =>
      have hparts := (Expr.everywhere_firstOf.mp h).2
      have hfirst := firstValue_congr fun e he => ih e he (hparts e he)
      rw [List.map_id'] at hfirst
      rw [value, value, hfirst]
  | encoded rule inner ih => rw [value, value, ih (Expr.everywhere_encoded.mp h).2]

end Scene

/-- What is found out about the expression from its shape holds in every scene.  Columns are named
for keys, texts and columns, and for nothing else; the value is missing exactly when one of these
columns is, and never where there are none.  A look-up is found exactly if there is one; without
it the value stays, whatever another store of the same locale holds. -/
structure IsAnalyzed (e : Expr) : Prop where
  named : e.nullColumns.isSome = true ↔ e.Everywhere IsKeyPart
  missing : ∀ columns, e.nullColumns = some columns →
    ∀ s : Scene, s.value e = none ↔ ∃ c ∈ columns, s.cell c = none
  always : e.nullColumns = some [] → ∀ s : Scene, s.value e ≠ none
  found : e.hasLookup = true ↔ ∃ t ∈ e.subterms, IsLookup t
  stores : e.hasLookup = false → ∀ (s : Scene) (store : Store), store.locale = s.store.locale →
    Scene.value { s with store := store } e = s.value e

/-- The analyses of every expression are sound. -/
theorem isAnalyzed (e : Expr) : IsAnalyzed e where
  named := e.isSome_nullColumns_iff
  missing _ hcolumns s := s.value_eq_none_iff hcolumns
  always hcolumns s hmissing := by
    obtain ⟨c, hc, -⟩ := (s.value_eq_none_iff hcolumns).mp hmissing
    cases hc
  found := by
    rw [← Bool.not_eq_false, e.hasLookup_eq_false_iff]
    simp [Expr.Everywhere]
  stores h s store hlocale :=
    Scene.value_eq_of_hasLookup_eq_false (fun role => by cases role <;> rfl) hlocale h

/-! ### Tickets -/

namespace Tickets

/-- A ticket is known by its number, its day as it was before, and whether it is paid. -/
def ticketKey : Expr :=
  .encoded .truncated (.keyJoin [.encoded (.cast .other) (.column .new "number"), .keyJoin [],
    .keyJoin [.column .old "day", .encoded .booleanText (.column .record "paid")]])

/-- A ticket is sold before the day of the visit is known. -/
def sold : Scene where
  old := some ⟨[("number", "7")]⟩
  new := some ⟨[("number", "7"), ("day", "May 2"), ("paid", "1")]⟩
  subject := some ⟨[("number", "7"), ("day", "May 2"), ("paid", "1")]⟩
  store := { locale := some "de" }
  skips := {}

/-- The same where the prices are known. -/
def prices : Store where
  rows := [("museum.Prices", ⟨[("day", "May 2"), ("price", "12")]⟩)]
  locale := some "de"

/-- The key of the ticket is missing since its day was, and the prices do not matter. -/
theorem isAnalyzed_ticketKey :
    ticketKey.nullColumns = some [(.new, "number"), (.old, "day"), (.record, "paid")] ∧
    ticketKey.hasLookup = false ∧ prices.locale = sold.store.locale ∧
    Expr.nullColumns (.keyJoin []) = some [] ∧
    sold.cell (.old, "day") = none ∧ sold.value ticketKey = none ∧
    Scene.value { sold with store := prices } ticketKey = sold.value ticketKey ∧
    sold.value (.keyJoin []) ≠ none := by
  have hcolumns : ticketKey.nullColumns =
      some [(.new, "number"), (.old, "day"), (.record, "paid")] := by decide
  have hlookup : ticketKey.hasLookup = false := by decide
  have hday : sold.cell (.old, "day") = none := by decide
  exact ⟨hcolumns, hlookup, rfl, rfl, hday,
    ((isAnalyzed ticketKey).missing _ hcolumns sold).mpr ⟨(.old, "day"), by simp, hday⟩,
    (isAnalyzed ticketKey).stores hlookup sold prices rfl,
    (isAnalyzed (.keyJoin [])).always rfl sold⟩

end Tickets

end ChangeTracking.Firing
