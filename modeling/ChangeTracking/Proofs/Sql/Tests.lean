import ChangeTracking.Proofs.Sql.Terms

/-!
# What tests say

A test says a truth, which may be unknown, when its text reads as a condition that has
this truth in every environment of the trigger.  The connectives carry brackets of their
own, so a test is said either as it stands or, like the inside of a bracket, in brackets.
-/

namespace ChangeTracking.Sql

open Firing (Scene)
open Engine
open Plan (Guard)

/-- The text of the test reads as a condition with this truth in all the environments. -/
def Test.Says (quoted : Bool) (sees : Environment → Prop) (t : Test) (truth : Option Bool) : Prop :=
  ∃ condition, WritesTest (Term.testFragment (.sqlite quoted) t) condition ∧
    ∀ env, sees env → condition.truth env = truth

/-- The same of a test that has to stand in brackets. -/
def Test.SaysInBrackets (quoted : Bool) (sees : Environment → Prop) (t : Test)
    (truth : Option Bool) : Prop :=
  ∃ condition, WritesCondition (Term.testFragment (.sqlite quoted) t) condition ∧
    ∀ env, sees env → condition.truth env = truth

namespace Test

attribute [local simp] ofGuard ofGuards

variable {quoted : Bool} {sees : Environment → Prop} {s : Scene}
  {session : String → Option String}

theorem Says.inBrackets {t : Test} {truth : Option Bool} (h : Says quoted sees t truth) :
    SaysInBrackets quoted sees t truth := by
  obtain ⟨condition, hwrites, htruth⟩ := h
  exact ⟨condition, hwrites.condition, htruth⟩

theorem SaysInBrackets.parens {t : Test} {truth : Option Bool}
    (h : SaysInBrackets quoted sees t truth) : Says quoted sees (.parens t) truth := by
  obtain ⟨condition, hwrites, htruth⟩ := h
  refine ⟨condition, ?_, htruth⟩
  rw [Term.testFragment]
  exact hwrites.parens

theorem SaysInBrackets.negation {t : Test} {truth : Option Bool}
    (h : SaysInBrackets quoted sees t truth) :
    Says quoted sees (.negation t) (truth.map not) := by
  obtain ⟨condition, hwrites, htruth⟩ := h
  refine ⟨.negation condition, ?_, fun env henv => ?_⟩
  · rw [Term.testFragment]
    exact hwrites.negation
  · rw [Condition.truth, htruth env henv]

theorem exists_of_forall₂ {ts : List Test} {ps : List (Option Bool)}
    (h : List.Forall₂ (Says quoted sees) ts ps) :
    ∃ conditions, List.Forall₂ WritesTest (Term.testFragments (.sqlite quoted) ts) conditions ∧
      ∀ env, sees env → truths conditions env = ps := by
  induction h with
  | nil => exact ⟨[], .nil, fun _ _ => rfl⟩
  | cons hfirst hrest ih =>
      obtain ⟨condition, hwrites, htruth⟩ := hfirst
      obtain ⟨conditions, hwritess, htruths⟩ := ih
      refine ⟨condition :: conditions, .cons hwrites hwritess, fun env henv => ?_⟩
      rw [truths, htruth env henv, htruths env henv]

theorem testFragments_ne_nil {d : Dialect} {ts : List Test} (hne : ts ≠ []) :
    Term.testFragments d ts ≠ [] := by
  cases ts with
  | nil => exact absurd rfl hne
  | cons t ts => exact List.cons_ne_nil _ _

theorem says_conjunction {ts : List Test} {ps : List (Option Bool)}
    (h : List.Forall₂ (Says quoted sees) ts ps) (hne : ts ≠ []) :
    SaysInBrackets quoted sees (.conjunction ts) (every ps) := by
  obtain ⟨conditions, hwrites, htruths⟩ := exists_of_forall₂ h
  refine ⟨joined .conjunction conditions, ?_, fun env henv => ?_⟩
  · rw [Term.testFragment]
    exact writesCondition_conjunction hwrites (testFragments_ne_nil hne)
  · rw [truth_joined_conjunction, htruths env henv]

theorem says_disjunction {ts : List Test} {ps : List (Option Bool)}
    (h : List.Forall₂ (Says quoted sees) ts ps) (hne : ts ≠ []) :
    SaysInBrackets quoted sees (.disjunction ts) (some? ps) := by
  obtain ⟨conditions, hwrites, htruths⟩ := exists_of_forall₂ h
  refine ⟨joined .disjunction conditions, ?_, fun env henv => ?_⟩
  · rw [Term.testFragment]
    exact writesCondition_disjunction hwrites (testFragments_ne_nil hne)
  · rw [truth_joined_disjunction, htruths env henv]

theorem says_constant (value : Bool) : Says quoted sees (.constant value) (some value) := by
  refine ⟨.compare .equal (.number 1) (.number (if value then 1 else 0)), ?_, fun env henv => ?_⟩
  · have hconstant := writesTest_constant value
    cases value <;> exact hconstant
  · cases value <;> rfl

theorem says_isNull {t : Term} {x : Option String} (h : Term.Says quoted sees t x) :
    Says quoted sees (.isNull t) (some x.isNone) := by
  obtain ⟨values, hwrites, hdenote⟩ := h
  refine ⟨.isNull (chained values), ?_, fun env henv => ?_⟩
  · rw [Term.testFragment]
    exact hwrites.isNull
  · rw [Condition.truth, hdenote env henv, Option.isNone_map]

theorem says_isNotNull {t : Term} {x : Option String} (h : Term.Says quoted sees t x) :
    Says quoted sees (.isNotNull t) (some x.isSome) := by
  obtain ⟨values, hwrites, hdenote⟩ := h
  refine ⟨.negation (.isNull (chained values)), ?_, fun env henv => ?_⟩
  · rw [Term.testFragment]
    exact hwrites.isNotNull
  · rw [Condition.truth, Condition.truth, hdenote env henv]
    cases x <;> rfl

theorem says_equal {t t' : Term} {x x' : Option String} (h : Term.Says quoted sees t x)
    (h' : Term.Says quoted sees t' x') :
    Says quoted sees (.equal t t') (Comparison.equal.truth (x.map .text) (x'.map .text)) := by
  obtain ⟨values, hwrites, hdenote⟩ := h
  obtain ⟨values', hwrites', hdenote'⟩ := h'
  refine ⟨.compare .equal (chained values) (chained values'), ?_, fun env henv => ?_⟩
  · rw [Term.testFragment]
    exact hwrites.equal hwrites'
  · rw [Condition.truth, hdenote env henv, hdenote' env henv]

theorem says_unequal {t t' : Term} {x x' : Option String} (h : Term.Says quoted sees t x)
    (h' : Term.Says quoted sees t' x') :
    Says quoted sees (.unequal t t') (Comparison.unequal.truth (x.map .text) (x'.map .text)) := by
  obtain ⟨values, hwrites, hdenote⟩ := h
  obtain ⟨values', hwrites', hdenote'⟩ := h'
  refine ⟨.compare .unequal (chained values) (chained values'), ?_, fun env henv => ?_⟩
  · rw [Term.testFragment]
    exact hwrites.unequal hwrites'
  · rw [Condition.truth, hdenote env henv, hdenote' env henv]

/-- Whether two values differ is never unknown. -/
theorem says_changed {old new : Term} {x x' : Option String} (h : Term.Says quoted sees old x)
    (h' : Term.Says quoted sees new x') :
    Says quoted sees (changed old new) (some (Plan.differs x x')) := by
  have hdiffer := says_disjunction
    (.cons (says_unequal h h') (.cons (says_isNull h) (.cons (says_isNull h') .nil)))
    (List.cons_ne_nil _ _)
  have hmissing := says_conjunction (.cons (says_isNull h) (.cons (says_isNull h') .nil))
    (List.cons_ne_nil _ _)
  have hboth := says_conjunction (.cons hdiffer.parens (.cons hmissing.negation .nil))
    (List.cons_ne_nil _ _)
  have htruth : every [some? [Comparison.unequal.truth (x.map .text) (x'.map .text),
      some x.isNone, some x'.isNone], (every [some x.isNone, some x'.isNone]).map not] =
        some (Plan.differs x x') := by
    cases x with
    | none => cases x' <;> rfl
    | some value =>
        cases x' with
        | none => rfl
        | some value' =>
            have hunequal : Comparison.unequal.truth (some (.text value)) (some (.text value')) =
                some (Plan.differs (some value) (some value')) := by
              rw [Comparison.truth, Option.bind_some, Option.map_some, Option.some.injEq,
                Bool.eq_iff_iff]
              simp [Plan.differs, Comparison.holds]
            simp only [Option.map_some, hunequal]
            cases Plan.differs (some value) (some value') <;> rfl
  -- The tests for missing values settle what the comparison leaves unknown.
  rw [← htruth]
  exact hboth.parens

/-- A flag is set where the session holds the text `true` under its name. -/
theorem says_flag (name : String) :
    Says quoted (Sees (.sqlite quoted) s session) (flag name)
      (some (session name == some "true")) := by
  have hsession := @Term.says_session quoted s session name
  have hcoalesce := Term.says_coalesce
    (.cons hsession (.cons (Term.says_literal "false") .nil)) (Nat.le_refl 2)
  have htruth : Comparison.equal.truth (([session name, some "false"].findSome? id).map .text)
      ((some "true").map .text) = some (session name == some "true") := by
    cases session name with
    | none => rfl
    | some value => simp [Comparison.truth, Comparison.holds]
  rw [← htruth]
  exact says_equal hcoalesce (Term.says_literal "true")

/-- One of the tests is true; none of no tests is. -/
theorem says_anyOf {ts : List Test} {truths : List Bool}
    (h : List.Forall₂ (Says quoted sees) ts (truths.map some)) :
    Says quoted sees (anyOf ts) (some (truths.any id)) := by
  unfold anyOf
  split
  · next hempty =>
      obtain rfl := List.isEmpty_iff.mp hempty
      obtain rfl : truths = [] := by simpa using h
      exact says_constant false
  · next hne =>
      rw [← some?_map_some]
      exact (says_disjunction h (by simpa using hne)).parens

/-- All tests are true; all of no tests are. -/
theorem says_allOf {ts : List Test} {truths : List Bool}
    (h : List.Forall₂ (Says quoted sees) ts (truths.map some)) :
    Says quoted sees (allOf ts) (some (truths.all id)) := by
  unfold allOf
  split
  · next hempty =>
      obtain rfl := List.isEmpty_iff.mp hempty
      obtain rfl : truths = [] := by simpa using h
      exact says_constant true
  · next hne =>
      rw [← every_map_some]
      exact (says_conjunction h (by simpa using hne)).parens

end Test

end ChangeTracking.Sql
