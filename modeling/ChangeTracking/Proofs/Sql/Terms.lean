import ChangeTracking.Proofs.Sql.Chains
import ChangeTracking.Proofs.Sql.Database
import ChangeTracking.Proofs.Sql.Queries
import ChangeTracking.Sql.Term

/-!
# What terms say

A term says a value when its text reads as a value that is this one in every environment
of the trigger, however deep inside queries the text stands.
-/

namespace ChangeTracking.Sql

open Firing (Row Scene)
open Engine
open Plan (RowRole)

/-! ## Saying -/

/-- The text of the term reads as a value that is `x` in all the environments. -/
def Term.Says (quoted : Bool) (sees : Environment → Prop) (t : Term) (x : Option String) : Prop :=
  ∃ values, WritesValue (t.fragment (.sqlite quoted)) values ∧
    ∀ env, sees env → (chained values).denote env = x.map .text

namespace Term

attribute [local simp] fragment fragments filterFragments rankedFragments branchFragment
  testFragment testFragments

variable {quoted : Bool} {sees : Environment → Prop}

theorem says_null : Says quoted sees .null none :=
  ⟨_, writesValue_null, fun _ _ => rfl⟩

theorem says_literal (value : String) : Says quoted sees (.literal value) (some value) :=
  ⟨_, writesValue_literal value, fun _ _ => rfl⟩

/-- Terms say what their texts read as, one by one. -/
theorem exists_of_forall₂ {ts : List Term} {xs : List (Option String)}
    (h : List.Forall₂ (Says quoted sees) ts xs) :
    ∃ valuess, List.Forall₂ WritesValue (fragments (.sqlite quoted) ts) valuess ∧
      ∀ env, sees env → valuess.map (fun values => (chained values).denote env) =
        xs.map (·.map .text) := by
  induction h with
  | nil => exact ⟨[], .nil, fun _ _ => rfl⟩
  | cons hfirst hrest ih =>
      obtain ⟨values, hwrites, hdenote⟩ := hfirst
      obtain ⟨valuess, hwritess, hdenotes⟩ := ih
      refine ⟨values :: valuess, .cons hwrites hwritess, fun env henv => ?_⟩
      rw [List.map_cons, List.map_cons, hdenote env henv, hdenotes env henv]

theorem concatenated_flatten {valuess : List (List Value)} {xs : List (Option String)}
    {env : Environment} (h : valuess.map (fun values => (chained values).denote env) =
      xs.map (·.map .text)) :
    concatenated (denoteAll valuess.flatten env) = (xs.mapM id).map String.join := by
  induction valuess generalizing xs with
  | nil =>
      obtain rfl : xs = [] := by simpa using h.symm
      rfl
  | cons values valuess ih =>
      cases xs with
      | nil => cases h
      | cons x xs =>
          obtain ⟨hfirst, hrest⟩ := List.cons.inj h
          rw [List.flatten_cons, denoteAll_eq_map, List.map_append, ← denoteAll_eq_map,
            ← denoteAll_eq_map, concatenated_append, concatenated_of_chained hfirst, ih hrest]
          rw [List.mapM_cons]
          cases x with
          | none => rfl
          | some value => cases xs.mapM id <;> simp

/-- Where chains that are texts make up a single value, it is a text. -/
theorem denote_chained_flatten {valuess : List (List Value)} {xs : List (Option String)}
    {env : Environment} (h : valuess.map (fun values => (chained values).denote env) =
      xs.map (·.map .text)) :
    (chained valuess.flatten).denote env = ((xs.mapM id).map String.join).map .text := by
  -- A single value is not concatenated: it is the value of the only chain that is not empty.
  by_cases hlength : valuess.flatten.length = 1
  · obtain ⟨value, hvalue⟩ := List.length_eq_one_iff.mp hlength
    have hmem : value ∈ valuess.flatten := by simp [hvalue]
    obtain ⟨values, hvalues, hmem⟩ := List.mem_flatten.mp hmem
    have hsingle : values = [value] := by
      have hsublist := List.sublist_flatten_of_mem hvalues
      rw [hvalue, List.sublist_singleton] at hsublist
      rcases hsublist with rfl | rfl
      · cases hmem
      · rfl
    have hdenote : (chained values).denote env ∈ xs.map (·.map Scalar.text) := by
      rw [← h]
      exact List.mem_map_of_mem hvalues
    obtain ⟨x, -, hx⟩ := List.mem_map.mp hdenote
    rw [hsingle, ← hvalue] at hx
    rw [← hx, ← concatenated_flatten h, concatenated_of_chained hx.symm]
  · rw [denote_chained hlength, concatenated_flatten h]

/-- Terms one after another say their values one after another. -/
theorem says_concat {ts : List Term} {xs : List (Option String)}
    (h : List.Forall₂ (Says quoted sees) ts xs) (hne : ts ≠ []) :
    Says quoted sees (.concat ts) ((xs.mapM id).map String.join) := by
  obtain ⟨valuess, hwrites, hdenote⟩ := exists_of_forall₂ h
  refine ⟨valuess.flatten, ?_, fun env henv => denote_chained_flatten (hdenote env henv)⟩
  rw [fragment]
  refine writesValue_concat hwrites ?_
  rw [fragments_eq_map]
  simpa using hne

/-- The first term that says a value decides. -/
theorem says_coalesce {ts : List Term} {xs : List (Option String)}
    (h : List.Forall₂ (Says quoted sees) ts xs) (hlength : 2 ≤ ts.length) :
    Says quoted sees (.coalesce ts) (xs.findSome? id) := by
  obtain ⟨valuess, hwrites, hdenote⟩ := exists_of_forall₂ h
  refine ⟨[.call .coalesce (valuess.map chained)], ?_, fun env henv => ?_⟩
  · rw [fragment]
    refine writesValue_coalesce hwrites ?_
    rwa [fragments_eq_map, List.length_map]
  · have hvalues : denoteAll (valuess.map chained) env = xs.map (·.map .text) := by
      rw [denoteAll_eq_map, List.map_map, ← hdenote env henv]
      rfl
    rw [chained, Value.denote, hvalues, Function.apply, List.findSome?_map, List.map_findSome?]
    rfl

/-- The empty text is no value. -/
theorem says_nullIfEmpty {t : Term} {x : Option String} (h : Says quoted sees t x) :
    Says quoted sees (.nullIfEmpty t) (x.filter fun value => !value.isEmpty) := by
  obtain ⟨values, hwrites, hdenote⟩ := h
  refine ⟨[.call .nullIf [chained values, .text ""]], ?_, fun env henv => ?_⟩
  · rw [fragment]
    exact writesValue_nullIfEmpty hwrites
  · rw [chained, Value.denote, denoteAll, denoteAll, denoteAll, hdenote env henv]
    cases x with
    | none => rfl
    | some value =>
        by_cases hempty : value = ""
        · subst hempty
          rfl
        · have hfilter : (some value).filter (fun value => !value.isEmpty) = some value := by
            simp [hempty]
          rw [hfilter]
          simp [hempty, Value.denote, Function.apply, Comparison.truth, Comparison.holds]

theorem says_substring {t : Term} {x : Option String} (h : Says quoted sees t x) (start : Nat)
    (count : Option Nat) :
    Says quoted sees (.substring t start count) (x.map fun value => cut value start count) := by
  obtain ⟨values, hwrites, hdenote⟩ := h
  refine ⟨[.call .substring (chained values :: bounds start count)], ?_, fun env henv => ?_⟩
  · rw [fragment]
    exact writesValue_substring quoted hwrites start count
  · rw [chained, Value.denote, denoteAll, hdenote env henv]
    cases x <;> cases count <;> rfl

/-- The value as the database writes it is the text that it is already. -/
theorem says_cast {t : Term} {x : Option String} (h : Says quoted sees t x)
    (valueClass : Tracking.ValueClass) : Says quoted sees (.cast valueClass t) x := by
  obtain ⟨values, hwrites, hdenote⟩ := h
  refine ⟨if valueClass.isTemporal then values else [.call .castToText [chained values]], ?_,
    fun env henv => ?_⟩
  · rw [fragment]
    exact writesValue_textCast quoted valueClass hwrites
  · by_cases htemporal : valueClass.isTemporal = true
    · rw [if_pos htemporal, hdenote env henv]
    · rw [if_neg htemporal, chained, Value.denote, denoteAll, denoteAll, hdenote env henv]
      cases x <;> rfl

/-- A text that is too long is cut and marked. -/
theorem says_truncated {t : Term} {x : Option String} (h : Says quoted sees t x) :
    Says quoted sees (truncated t) (x.map Plan.truncate) := by
  have hcut := says_concat
    (.cons (says_substring h 1 (some Plan.truncatedLength))
      (.cons (says_literal Plan.ellipsis) .nil))
    (List.cons_ne_nil _ _)
  obtain ⟨cutValues, hcutWrites, hcutDenote⟩ := hcut
  obtain ⟨values, hwrites, hdenote⟩ := h
  refine ⟨[.choose (.compare .greater (.call .length [chained values])
    (.number Plan.maxValueLength)) (chained cutValues) (chained values)], ?_, fun env henv => ?_⟩
  · refine writesValue_choose (hwrites.longerThan Plan.maxValueLength).condition hcutWrites
      hwrites ?_
    simp [truncated]
  · have hlength : (Value.call .length [chained values]).denote env =
        x.map fun value => .number value.length := by
      rw [Value.denote, denoteAll, denoteAll, hdenote env henv]
      cases x <;> rfl
    rw [chained, Value.denote, Condition.truth, hcutDenote env henv, hdenote env henv, hlength]
    cases x with
    | none => rfl
    | some value =>
        -- SQL asks whether the text is too long, evaluation whether it is not.
        by_cases hlong : value.length ≤ Plan.maxValueLength
        · have hfalse : ¬Plan.maxValueLength < value.length := by omega
          simp [Plan.truncate, hlong, hfalse, Value.denote, Comparison.truth, Comparison.holds,
            Scalar.lt]
        · have htrue : Plan.maxValueLength < value.length := by omega
          simp [Plan.truncate, hlong, htrue, Value.denote, Comparison.truth, Comparison.holds,
            Scalar.lt, cut]

/-! ## Rows of the trigger and values of the session -/

variable {s : Scene} {session : String → Option String}

theorem says_rowColumn {row : RowRole} {column : String} (hrow : row = .old ∨ row = .new)
    (hcolumn : ∀ r ∈ s.row row, TellsColumn r column) :
    Says quoted (Sees (.sqlite quoted) s session) (.rowColumn row column)
      ((s.row row).bind fun r => r.get? column) := by
  refine ⟨_, writesValue_rowColumn quoted column hrow, fun env henv => ?_⟩
  have hcells : env.row (if row = .old then "OLD" else "NEW") = (s.row row).map cellsOf := by
    rcases hrow with rfl | rfl
    · exact henv.row_old
    · exact henv.row_new
  rw [chained, Value.denote, hcells]
  cases hr : s.row row with
  | none => rfl
  | some r => exact get_cellsOf (hcolumn r (by rw [hr]; rfl))

theorem says_session (key : String) :
    Says quoted (Sees (.sqlite quoted) s session) (.session key) (session key) := by
  refine ⟨_, writesValue_sessionValue quoted key, fun env henv => ?_⟩
  rw [chained, Value.denote, henv.database]
  rfl

theorem says_setting (key : String) :
    Says quoted (Sees (.sqlite quoted) s session) (.setting key) (session key) := by
  obtain ⟨values, hwrites, hdenote⟩ := @says_session quoted s session key
  exact ⟨values, hwrites, hdenote⟩

end Term

end ChangeTracking.Sql
