import ChangeTracking.Proofs.Sql.Meaning
import ChangeTracking.Proofs.Sql.Reading

/-!
# Chains and connectives

A chain of values and a condition of conditions stand for themselves when there is only
one of them.  Where the values are texts this makes no difference to what is meant.
-/

namespace ChangeTracking.Sql.Engine

/-! ## Chains of texts -/

/-- The values one after another; missing when one of them is. -/
def concatenated (values : List (Option Scalar)) : Option String :=
  (values.mapM id).map fun values => String.join (values.map Scalar.spelling)

theorem concatenated_append (values values' : List (Option Scalar)) :
    concatenated (values ++ values') =
      (concatenated values).bind fun a => (concatenated values').map fun b => a ++ b := by
  unfold concatenated
  rw [List.mapM_append]
  cases values.mapM id <;> cases values'.mapM id <;> simp [String.join_append]

theorem concatenated_text (x : Option String) : concatenated [x.map .text] = x := by
  cases x <;> simp [concatenated, Scalar.spelling]

/-- A chain of two and more values is their concatenation. -/
theorem denote_chained {values : List Value} (hlength : values.length ≠ 1) (env : Environment) :
    (chained values).denote env = (concatenated (denoteAll values env)).map .text := by
  have hcall : (Value.call .concat values).denote env =
      (concatenated (denoteAll values env)).map .text := by
    rw [Value.denote, Function.apply, concatenated, Option.map_map]
    rfl
  unfold chained
  split
  · exact absurd rfl hlength
  · exact hcall

/-- A chain that is a text is the concatenation of its values. -/
theorem concatenated_of_chained {values : List Value} {env : Environment} {x : Option String}
    (h : (chained values).denote env = x.map .text) : concatenated (denoteAll values env) = x := by
  -- A value alone is not concatenated, and as a text it is its own concatenation.
  by_cases hlength : values.length = 1
  · obtain ⟨value, rfl⟩ := List.length_eq_one_iff.mp hlength
    rw [chained] at h
    rw [denoteAll, denoteAll, h, concatenated_text]
  · rw [denote_chained hlength] at h
    exact Option.map_injective (fun a b hab => by cases hab; rfl) h

/-! ## Connectives -/

theorem truth_joined_conjunction (conditions : List Condition) (env : Environment) :
    (joined .conjunction conditions).truth env = every (truths conditions env) := by
  unfold joined
  split
  · next condition =>
      rw [truths, truths, every_cons]
      cases condition.truth env with
      | none => rfl
      | some truth => cases truth <;> rfl
  · rw [Condition.truth]

theorem truth_joined_disjunction (conditions : List Condition) (env : Environment) :
    (joined .disjunction conditions).truth env = some? (truths conditions env) := by
  unfold joined
  split
  · next condition =>
      rw [truths, truths, some?, List.foldr_cons, List.foldr_nil]
      cases condition.truth env with
      | none => rfl
      | some truth => cases truth <;> rfl
  · rw [Condition.truth]

end ChangeTracking.Sql.Engine
