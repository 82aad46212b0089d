import ChangeTracking.Proofs.Plan.Subterms
import ChangeTracking.Sql.Term

/-!
# What lowering keeps

Expressions and guards are lowered by a few ways of putting terms and tests together.  A
property that each of them keeps holds of whatever expressions are lowered to, if only it holds
where the lowering starts: at literals, rows, locals and look-ups.
-/

namespace ChangeTracking.Sql

open Plan (Expr Guard TextRule)
open Tracking (ValueClass)

/-! ## The choice of a dialect -/

section Choice

variable {d d' : Dialect} (hkey : d.localeKey = d'.localeKey)
  (hranks : d.ranksAlternatives = d'.ranksAlternatives)

include hkey hranks

/-- The lowering asks a dialect for the key of the locale, and whether it ranks alternatives. -/
theorem Term.ofExpr_congr (e : Expr) : Term.ofExpr d e = Term.ofExpr d' e := by
  have hall {parts : List Expr} (ih : ∀ e ∈ parts, Term.ofExpr d e = Term.ofExpr d' e) :
      Term.ofExprs d parts = Term.ofExprs d' parts := by
    rw [Term.ofExprs_eq_map, Term.ofExprs_eq_map]
    exact List.map_congr_left ih
  induction e using Expr.inductOn with
  | null => rfl
  | text value => rfl
  | column row name => rfl
  | ofLocal name => rfl
  | locale => rw [Term.ofExpr, Term.ofExpr, hkey]
  | lookup entity name filters ih =>
      rw [Term.ofExpr, Term.ofExpr, Term.ofFilters_eq_map, Term.ofFilters_eq_map]
      rw [List.map_congr_left fun f hf => by rw [ih f hf]]
  | keyJoin parts ih => rw [Term.ofExpr, Term.ofExpr, hall ih]
  | listJoin parts ih => rw [Term.ofExpr, Term.ofExpr, hall ih]
  | firstOf parts ih => rw [Term.ofExpr, Term.ofExpr, hall ih, Term.firstOf, Term.firstOf, hranks]
  | encoded rule inner ih => rw [Term.ofExpr, Term.ofExpr, ih]

theorem Test.ofGuard_congr (g : Guard) : Test.ofGuard d g = Test.ofGuard d' g := by
  have hexpr := Term.ofExpr_congr hkey hranks
  have hall {guards : List Guard} (ih : ∀ g ∈ guards, Test.ofGuard d g = Test.ofGuard d' g) :
      Test.ofGuards d guards = Test.ofGuards d' guards := by
    rw [Test.ofGuards_eq_map, Test.ofGuards_eq_map]
    exact List.map_congr_left ih
  induction g using Guard.inductOn with
  | notNull value => rw [Test.ofGuard, Test.ofGuard, hexpr]
  | changed old new => rw [Test.ofGuard, Test.ofGuard, hexpr, hexpr]
  | any guards ih => rw [Test.ofGuard, Test.ofGuard, hall ih]
  | all guards ih => rw [Test.ofGuard, Test.ofGuard, hall ih]
  | negate inner ih => rw [Test.ofGuard, Test.ofGuard, ih]
  | flag name => rfl

end Choice

/-! ## Closure -/

namespace Term

/-- The texts that the lowering itself adds. -/
def addedTexts : List String :=
  ["true", "false", Plan.ellipsis, Plan.keySeparator, Plan.listSeparator, ""]

/-- Terms and tests inherit the properties from their parts. -/
structure Inherits (p : Term → Prop) (q : Test → Prop) : Prop where
  null : p .null
  literal : ∀ value ∈ addedTexts, p (.literal value)
  concat : ∀ ts, (∀ t ∈ ts, p t) → p (.concat ts)
  coalesce : ∀ ts, (∀ t ∈ ts, p t) → p (.coalesce ts)
  nullIfEmpty : ∀ t, p t → p (.nullIfEmpty t)
  substring : ∀ t start count, p t → p (.substring t start count)
  cast : ∀ valueClass t, p t → p (.cast valueClass t)
  choose : ∀ branches otherwise, (∀ b ∈ branches, q b.1 ∧ p b.2) → p otherwise →
    p (.choose branches otherwise)
  constant : ∀ value, q (.constant value)
  isNull : ∀ t, p t → q (.isNull t)
  isNotNull : ∀ t, p t → q (.isNotNull t)
  equal : ∀ left right, p left → p right → q (.equal left right)
  unequal : ∀ left right, p left → p right → q (.unequal left right)
  isTrue : ∀ t, p t → q (.isTrue t)
  longerThan : ∀ limit t, p t → q (.longerThan limit t)
  conjunction : ∀ tests, (∀ t ∈ tests, q t) → q (.conjunction tests)
  disjunction : ∀ tests, (∀ t ∈ tests, q t) → q (.disjunction tests)
  negation : ∀ t, q t → q (.negation t)
  parens : ∀ t, q t → q (.parens t)

/-- The lowering of the expression starts with a term that has the property.  A look-up has it
if its filters have. -/
def StartsWith (d : Dialect) (p : Term → Prop) : Expr → Prop
  | .text value => p (.literal value)
  | .column row name => p (.rowColumn row name)
  | .variable name => p (.localValue name)
  | .locale => p (.setting d.localeKey)
  | .lookup entity name filters => ∀ terms : List (String × Term),
      terms.map Prod.fst = filters.map Prod.fst → (∀ f ∈ terms, p f.2) →
        p (.scalar (.from entity name terms))
  | _ => True

variable {p : Term → Prop} {q : Test → Prop}

theorem Inherits.keyParts (h : Inherits p q) {ts : List Term} (hts : ∀ t ∈ ts, p t) :
    ∀ t ∈ keyParts ts, p t := by
  fun_induction Term.keyParts ts with
  | case1 => exact List.forall_mem_nil _
  | case2 part => exact hts
  | case3 part parts _ ih =>
      obtain ⟨hpart, hparts⟩ := List.forall_mem_cons.mp hts
      have hseparator : p (.literal Plan.keySeparator) := h.literal _ (by simp [addedTexts])
      exact List.forall_mem_cons.mpr ⟨hpart, List.forall_mem_cons.mpr ⟨hseparator, ih hparts⟩⟩

theorem Inherits.phrasePart (h : Inherits p q) {t : Term} (ht : p t) : p (phrasePart t) := by
  have hseparator : p (.literal Plan.listSeparator) := h.literal _ (by simp [addedTexts])
  have hempty : p (.literal "") := h.literal _ (by simp [addedTexts])
  have hjoined := h.concat [.literal Plan.listSeparator, .nullIfEmpty t]
    (List.forall_mem_cons.mpr ⟨hseparator, List.forall_mem_singleton.mpr (h.nullIfEmpty _ ht)⟩)
  exact h.coalesce _ (List.forall_mem_cons.mpr ⟨hjoined, List.forall_mem_singleton.mpr hempty⟩)

theorem Inherits.phrase (h : Inherits p q) {ts : List Term} (hts : ∀ t ∈ ts, p t) :
    p (phrase ts) := by
  unfold Term.phrase
  split
  · exact h.nullIfEmpty _ (hts _ List.mem_cons_self)
  · refine h.nullIfEmpty _ (h.substring _ _ _ (h.concat _ fun t ht => ?_))
    obtain ⟨part, hpart, rfl⟩ := List.mem_map.mp ht
    exact h.phrasePart (hts part hpart)

theorem Inherits.truncated (h : Inherits p q) {t : Term} (ht : p t) : p (truncated t) := by
  have hellipsis : p (.literal Plan.ellipsis) := h.literal _ (by simp [addedTexts])
  have hcut := h.concat [.substring t 1 (some Plan.truncatedLength), .literal Plan.ellipsis]
    (List.forall_mem_cons.mpr ⟨h.substring _ _ _ ht, List.forall_mem_singleton.mpr hellipsis⟩)
  exact h.choose _ _ (List.forall_mem_singleton.mpr ⟨h.longerThan _ _ ht, hcut⟩) ht

theorem Inherits.booleanName (h : Inherits p q) {t : Term} (ht : p t) : p (booleanName t) := by
  have htrue : p (.literal "true") := h.literal _ (by simp [addedTexts])
  have hfalse : p (.literal "false") := h.literal _ (by simp [addedTexts])
  exact h.choose _ _ (List.forall_mem_cons.mpr ⟨⟨h.isNull _ ht, h.null⟩,
    List.forall_mem_singleton.mpr ⟨h.isTrue _ ht, htrue⟩⟩) hfalse

theorem Inherits.encoded (h : Inherits p q) (rule : TextRule) {t : Term} (ht : p t) :
    p (encoded rule t) := by
  cases rule with
  | booleanText => exact h.booleanName ht
  | truncated => exact h.truncated ht
  | cast valueClass => exact h.cast valueClass t ht

variable {d : Dialect}

/-- What an expression is lowered to has the property, unless alternatives are ranked in one
query. -/
theorem Inherits.ofExpr (h : Inherits p q) (hranks : d.ranksAlternatives = false) {e : Expr}
    (he : e.Everywhere (StartsWith d p)) : p (ofExpr d e) := by
  have hall {parts : List Expr}
      (ih : ∀ e ∈ parts, e.Everywhere (StartsWith d p) → p (Term.ofExpr d e))
      (hparts : ∀ e ∈ parts, e.Everywhere (StartsWith d p)) :
      ∀ t ∈ ofExprs d parts, p t := by
    rw [ofExprs_eq_map]
    intro t ht
    obtain ⟨e, he, rfl⟩ := List.mem_map.mp ht
    exact ih e he (hparts e he)
  induction e using Expr.inductOn with
  | null => exact h.null
  | text value => exact he.self
  | column row name => exact he.self
  | ofLocal name => exact he.self
  | locale => exact he.self
  | lookup entity name filters ih =>
      obtain ⟨hself, hfilters⟩ := Expr.everywhere_lookup.mp he
      rw [Term.ofExpr, ofFilters_eq_map]
      refine hself _ (by simp) fun f hf => ?_
      obtain ⟨filter, hfilter, rfl⟩ := List.mem_map.mp hf
      exact ih filter hfilter (hfilters filter hfilter)
  | keyJoin parts ih =>
      exact h.concat _ (h.keyParts (hall ih (Expr.everywhere_keyJoin.mp he).2))
  | listJoin parts ih => exact h.phrase (hall ih (Expr.everywhere_listJoin.mp he).2)
  | firstOf parts ih =>
      rw [Term.ofExpr, firstOf, hranks, Bool.false_and]
      exact h.coalesce _ (hall ih (Expr.everywhere_firstOf.mp he).2)
  | encoded rule inner ih => exact h.encoded rule (ih (Expr.everywhere_encoded.mp he).2)

/-! ## Guards -/

theorem Inherits.changed (h : Inherits p q) {old new : Term} (hold : p old) (hnew : p new) :
    q (Test.changed old new) := by
  have hnulls : ∀ t ∈ [Test.isNull old, .isNull new], q t :=
    List.forall_mem_cons.mpr ⟨h.isNull _ hold, List.forall_mem_singleton.mpr (h.isNull _ hnew)⟩
  have hdiffer := h.parens _ (h.disjunction _
    (List.forall_mem_cons.mpr ⟨h.unequal _ _ hold hnew, hnulls⟩))
  have hthere := h.negation _ (h.conjunction _ hnulls)
  exact h.parens _ (h.conjunction _
    (List.forall_mem_cons.mpr ⟨hdiffer, List.forall_mem_singleton.mpr hthere⟩))

theorem Inherits.flag (h : Inherits p q) {name : String} (hname : p (.session name)) :
    q (Test.flag name) := by
  have htrue : p (.literal "true") := h.literal _ (by simp [addedTexts])
  have hfalse : p (.literal "false") := h.literal _ (by simp [addedTexts])
  exact h.equal _ _ (h.coalesce _
    (List.forall_mem_cons.mpr ⟨hname, List.forall_mem_singleton.mpr hfalse⟩)) htrue

/-- What a guard is lowered to has the property, if the values that it tests have it and the
session values that it asks for. -/
theorem Inherits.ofGuard (h : Inherits p q) {g : Guard}
    (hvalues : ∀ e ∈ g.values, p (Term.ofExpr d e)) (hflags : ∀ name ∈ g.flags, p (.session name)) :
    q (Test.ofGuard d g) := by
  have hall {guards : List Guard}
      (ih : ∀ g ∈ guards, (∀ e ∈ g.values, p (Term.ofExpr d e)) →
        (∀ name ∈ g.flags, p (.session name)) → q (Test.ofGuard d g))
      (hvalues : ∀ e ∈ Guard.allValues guards, p (Term.ofExpr d e))
      (hflags : ∀ name ∈ Guard.allFlags guards, p (.session name)) :
      ∀ t ∈ Test.ofGuards d guards, q t := by
    rw [Test.ofGuards_eq_map]
    intro t ht
    obtain ⟨g, hg, rfl⟩ := List.mem_map.mp ht
    exact ih g hg (fun e he => hvalues e (Guard.mem_allValues.mpr ⟨g, hg, he⟩))
      fun name hname => hflags name (Guard.mem_allFlags.mpr ⟨g, hg, hname⟩)
  induction g using Guard.inductOn with
  | notNull value => exact h.isNotNull _ (hvalues value List.mem_cons_self)
  | changed old new =>
      obtain ⟨hold, hnew⟩ := List.forall_mem_cons.mp hvalues
      exact h.changed hold (hnew new List.mem_cons_self)
  | any guards ih =>
      rw [Test.ofGuard, Test.anyOf]
      split
      · exact h.constant false
      · exact h.parens _ (h.disjunction _ (hall ih hvalues hflags))
  | all guards ih =>
      rw [Test.ofGuard, Test.allOf]
      split
      · exact h.constant true
      · exact h.parens _ (h.conjunction _ (hall ih hvalues hflags))
  | negate inner ih => exact h.negation _ (ih hvalues hflags)
  | flag name => exact h.flag (hflags name List.mem_cons_self)

end Term

end ChangeTracking.Sql
