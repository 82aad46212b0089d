import ChangeTracking.Plan.Guard

/-!
# Subterms of expressions and guards

Expressions keep their parts in lists, and so do guards.  The induction principles here
give one hypothesis for each member of such a list, and a property that is to hold at
every nesting depth is stated once, of all subterms.
-/

namespace ChangeTracking.Plan

namespace Expr

/-- Induction over expressions, with a hypothesis for every part of a list. -/
@[elab_as_elim] theorem inductOn {motive : Expr → Prop}
    (null : motive .null)
    (text : ∀ value, motive (.text value))
    (column : ∀ row name, motive (.column row name))
    (ofLocal : ∀ name, motive (.variable name))
    (locale : motive .locale)
    (lookup : ∀ entity name filters, (∀ f ∈ filters, motive f.2) →
      motive (.lookup entity name filters))
    (keyJoin : ∀ parts, (∀ e ∈ parts, motive e) → motive (.keyJoin parts))
    (listJoin : ∀ parts, (∀ e ∈ parts, motive e) → motive (.listJoin parts))
    (firstOf : ∀ parts, (∀ e ∈ parts, motive e) → motive (.firstOf parts))
    (encoded : ∀ rule inner, motive inner → motive (.encoded rule inner)) (e : Expr) :
    motive e := by
  -- The recursor has one motive for each kind of list that expressions are kept in.
  refine @Expr.rec motive (fun filters => ∀ f ∈ filters, motive f.2)
    (fun parts => ∀ e ∈ parts, motive e) (fun f => motive f.2)
    null text column ofLocal locale lookup keyJoin listJoin firstOf encoded
    ?_ ?_ ?_ ?_ ?_ e
  · intro f hf
    cases hf
  · intro f filters hhead htail g hg
    rcases List.mem_cons.mp hg with rfl | hg
    · exact hhead
    · exact htail g hg
  · intro e he
    cases he
  · intro e parts hhead htail g hg
    rcases List.mem_cons.mp hg with rfl | hg
    · exact hhead
    · exact htail g hg
  · intro name e he
    exact he

mutual

/-- The expression itself and everything that it is built from. -/
def subterms : Expr → List Expr
  | .lookup entity name filters => .lookup entity name filters :: filterSubterms filters
  | .keyJoin parts => .keyJoin parts :: allSubterms parts
  | .listJoin parts => .listJoin parts :: allSubterms parts
  | .firstOf parts => .firstOf parts :: allSubterms parts
  | .encoded rule inner => .encoded rule inner :: subterms inner
  | e => [e]

/-- The subterms of the expressions of a list. -/
def allSubterms : List Expr → List Expr
  | [] => []
  | e :: es => subterms e ++ allSubterms es

/-- The subterms of the values of filters. -/
def filterSubterms : List (String × Expr) → List Expr
  | [] => []
  | (_, e) :: filters => subterms e ++ filterSubterms filters

end

attribute [local simp] subterms allSubterms filterSubterms

theorem mem_allSubterms {t : Expr} {es : List Expr} :
    t ∈ allSubterms es ↔ ∃ e ∈ es, t ∈ e.subterms := by
  induction es with
  | nil => simp
  | cons e es ih => simp [ih]

theorem mem_filterSubterms {t : Expr} {filters : List (String × Expr)} :
    t ∈ filterSubterms filters ↔ ∃ f ∈ filters, t ∈ f.2.subterms := by
  induction filters with
  | nil => simp
  | cons f filters ih => simp [ih]

/-! ## Properties of all subterms -/

/-- The property holds of the expression and of everything that it is built from. -/
def Everywhere (p : Expr → Prop) (e : Expr) : Prop := ∀ t ∈ e.subterms, p t

instance (p : Expr → Prop) [DecidablePred p] : DecidablePred (Everywhere p) :=
  fun e => inferInstanceAs (Decidable (∀ t ∈ e.subterms, p t))

variable {p q : Expr → Prop}

theorem Everywhere.self {e : Expr} (h : e.Everywhere p) : p e := by
  apply h
  cases e <;> simp

theorem Everywhere.mono {e : Expr} (h : e.Everywhere p) (hpq : ∀ t, p t → q t) :
    e.Everywhere q :=
  fun t ht => hpq t (h t ht)

@[simp] theorem everywhere_null : Everywhere p .null ↔ p .null := by
  simp [Everywhere]

@[simp] theorem everywhere_text {value : String} :
    Everywhere p (.text value) ↔ p (.text value) := by
  simp [Everywhere]

@[simp] theorem everywhere_column {row : RowRole} {name : String} :
    Everywhere p (.column row name) ↔ p (.column row name) := by
  simp [Everywhere]

@[simp] theorem everywhere_variable {name : String} :
    Everywhere p (.variable name) ↔ p (.variable name) := by
  simp [Everywhere]

@[simp] theorem everywhere_locale : Everywhere p .locale ↔ p .locale := by
  simp [Everywhere]

@[simp] theorem everywhere_encoded {rule : TextRule} {inner : Expr} :
    Everywhere p (.encoded rule inner) ↔ p (.encoded rule inner) ∧ inner.Everywhere p := by
  simp [Everywhere]

private theorem forall_mem_allSubterms {parts : List Expr} :
    (∀ t ∈ allSubterms parts, p t) ↔ ∀ e ∈ parts, e.Everywhere p := by
  simp only [mem_allSubterms, Everywhere]
  constructor
  · intro h e he t ht
    exact h t ⟨e, he, ht⟩
  · rintro h t ⟨e, he, ht⟩
    exact h e he t ht

@[simp] theorem everywhere_keyJoin {parts : List Expr} :
    Everywhere p (.keyJoin parts) ↔ p (.keyJoin parts) ∧ ∀ e ∈ parts, e.Everywhere p := by
  simp only [← forall_mem_allSubterms]
  simp [Everywhere]

@[simp] theorem everywhere_listJoin {parts : List Expr} :
    Everywhere p (.listJoin parts) ↔ p (.listJoin parts) ∧ ∀ e ∈ parts, e.Everywhere p := by
  simp only [← forall_mem_allSubterms]
  simp [Everywhere]

@[simp] theorem everywhere_firstOf {parts : List Expr} :
    Everywhere p (.firstOf parts) ↔ p (.firstOf parts) ∧ ∀ e ∈ parts, e.Everywhere p := by
  simp only [← forall_mem_allSubterms]
  simp [Everywhere]

@[simp] theorem everywhere_lookup {entity name : String} {filters : List (String × Expr)} :
    Everywhere p (.lookup entity name filters) ↔
      p (.lookup entity name filters) ∧ ∀ f ∈ filters, f.2.Everywhere p := by
  constructor
  · intro h
    refine ⟨h.self, ?_⟩
    intro f hf t ht
    apply h
    rw [subterms, List.mem_cons, mem_filterSubterms]
    exact Or.inr ⟨f, hf, ht⟩
  · rintro ⟨hself, hfilters⟩ t ht
    rw [subterms, List.mem_cons, mem_filterSubterms] at ht
    rcases ht with rfl | ⟨f, hf, ht⟩
    · exact hself
    · exact hfilters f hf t ht

/-- What holds of the subterms of an expression once they are bound holds of those of the bound
expression. -/
theorem Everywhere.bind {row : RowRole} (hbind : ∀ t, p t → q (t.bind row)) {e : Expr}
    (h : e.Everywhere p) : (e.bind row).Everywhere q := by
  have hall {parts : List Expr} (hparts : ∀ e ∈ parts, (e.bind row).Everywhere q) :
      ∀ e ∈ bindAll row parts, e.Everywhere q := by
    rw [bindAll_eq_map]
    intro e he
    obtain ⟨part, hpart, rfl⟩ := List.mem_map.mp he
    exact hparts part hpart
  have hself := hbind e h.self
  induction e using Expr.inductOn with
  | null => exact everywhere_null.mpr hself
  | text value => exact everywhere_text.mpr hself
  | column role name => cases role <;> exact everywhere_column.mpr hself
  | ofLocal name => exact everywhere_variable.mpr hself
  | locale => exact everywhere_locale.mpr hself
  | lookup entity name filters ih =>
      have hfilters := (everywhere_lookup.mp h).2
      refine everywhere_lookup.mpr ⟨hself, ?_⟩
      rw [bindFilters_eq_map]
      intro f hf
      obtain ⟨g, hg, rfl⟩ := List.mem_map.mp hf
      exact ih g hg (hfilters g hg) (hbind _ (hfilters g hg).self)
  | keyJoin parts ih =>
      have hparts := (everywhere_keyJoin.mp h).2
      exact everywhere_keyJoin.mpr
        ⟨hself, hall fun e he => ih e he (hparts e he) (hbind _ (hparts e he).self)⟩
  | listJoin parts ih =>
      have hparts := (everywhere_listJoin.mp h).2
      exact everywhere_listJoin.mpr
        ⟨hself, hall fun e he => ih e he (hparts e he) (hbind _ (hparts e he).self)⟩
  | firstOf parts ih =>
      have hparts := (everywhere_firstOf.mp h).2
      exact everywhere_firstOf.mpr
        ⟨hself, hall fun e he => ih e he (hparts e he) (hbind _ (hparts e he).self)⟩
  | encoded rule inner ih =>
      have hinner := (everywhere_encoded.mp h).2
      exact everywhere_encoded.mpr ⟨hself, ih hinner (hbind _ hinner.self)⟩

/-- The columns that decide whether a value is there are read in it. -/
theorem Everywhere.of_nullColumns {e : Expr} (h : e.Everywhere p)
    {columns : List (RowRole × String)} (hcolumns : e.nullColumns = some columns) :
    ∀ c ∈ columns, p (.column c.1 c.2) := by
  have hall {parts : List Expr} {columns : List (RowRole × String)}
      (hparts : ∀ e ∈ parts, ∀ found, e.nullColumns = some found → ∀ c ∈ found, p (.column c.1 c.2))
      (hcolumns : allNullColumns parts = some columns) : ∀ c ∈ columns, p (.column c.1 c.2) := by
    induction parts generalizing columns with
    | nil =>
        rw [allNullColumns, Option.some.injEq] at hcolumns
        subst hcolumns
        exact List.forall_mem_nil _
    | cons e parts ih =>
        obtain ⟨hfirst, hparts⟩ := List.forall_mem_cons.mp hparts
        rw [allNullColumns, Option.bind_eq_some_iff] at hcolumns
        obtain ⟨head, hhead, hcolumns⟩ := hcolumns
        obtain ⟨rest, hrest, rfl⟩ := Option.map_eq_some_iff.mp hcolumns
        exact List.forall_mem_append.mpr ⟨hfirst head hhead, ih hparts hrest⟩
  induction e using Expr.inductOn generalizing columns with
  | column role name =>
      rw [nullColumns, Option.some.injEq] at hcolumns
      subst hcolumns
      exact List.forall_mem_singleton.mpr h.self
  | keyJoin parts ih =>
      rw [nullColumns] at hcolumns
      exact hall (fun e he _ hfound => ih e he ((everywhere_keyJoin.mp h).2 e he) hfound) hcolumns
  | encoded rule inner ih =>
      rw [nullColumns] at hcolumns
      exact ih (everywhere_encoded.mp h).2 hcolumns
  | _ => cases hcolumns

end Expr

namespace Guard

/-- Induction over guards, with a hypothesis for every member of a list. -/
@[elab_as_elim] theorem inductOn {motive : Guard → Prop}
    (notNull : ∀ value, motive (.notNull value))
    (changed : ∀ old new, motive (.changed old new))
    (any : ∀ guards, (∀ g ∈ guards, motive g) → motive (.any guards))
    (all : ∀ guards, (∀ g ∈ guards, motive g) → motive (.all guards))
    (negate : ∀ inner, motive inner → motive (.negate inner))
    (flag : ∀ name, motive (.flag name)) (g : Guard) : motive g := by
  refine @Guard.rec motive (fun guards => ∀ g ∈ guards, motive g)
    notNull changed any all negate flag ?_ ?_ g
  · intro g hg
    cases hg
  · intro head tail hhead htail g hg
    rcases List.mem_cons.mp hg with rfl | hg
    · exact hhead
    · exact htail g hg

mutual

def values : Guard → List Expr
  | .notNull value => [value]
  | .changed old new => [old, new]
  | .any guards => allValues guards
  | .all guards => allValues guards
  | .negate inner => values inner
  | .flag _ => []

/-- The values that are tested by the guards of a list. -/
def allValues : List Guard → List Expr
  | [] => []
  | guard :: guards => values guard ++ allValues guards

end

mutual

/-- The flags that are asked for. -/
def flags : Guard → List String
  | .notNull _ => []
  | .changed _ _ => []
  | .any guards => allFlags guards
  | .all guards => allFlags guards
  | .negate inner => flags inner
  | .flag name => [name]

/-- The flags that the guards of a list ask for. -/
def allFlags : List Guard → List String
  | [] => []
  | guard :: guards => flags guard ++ allFlags guards

end

attribute [local simp] values allValues flags allFlags

theorem mem_allValues {value : Expr} {guards : List Guard} :
    value ∈ allValues guards ↔ ∃ guard ∈ guards, value ∈ guard.values := by
  induction guards with
  | nil => simp
  | cons guard guards ih => simp [ih]

theorem mem_allFlags {name : String} {guards : List Guard} :
    name ∈ allFlags guards ↔ ∃ guard ∈ guards, name ∈ guard.flags := by
  induction guards with
  | nil => simp
  | cons guard guards ih => simp [ih]

end Guard

end ChangeTracking.Plan
