import ChangeTracking.Proofs.Sql.Parameters
import Mathlib.Data.List.Forall2

/-!
# Writing step by step

A program writes a statement from the inside out: it writes every operand, which notes the host
expressions of its parameters, and puts the texts together afterwards.  An operand that stands
in a text several times is written as many times.  However deep expressions are nested, the
parameters are noted in the order in which their question marks stand in the text.
-/

namespace ChangeTracking.Sql

open Dialect (h2)
open Plan (Expr Guard RowRole TextRule)

/-- Writing, while the host expressions of parameters are noted. -/
abbrev Recorder := StateM (List String)

namespace Recorder

/-! ## Programs -/

/-- A value of the host program: its expression is noted, and a question mark is written. -/
def parameter (host : String) : Recorder String := do
  modify (· ++ [host])
  pure "CAST(? AS VARCHAR)"

/-- The expression for a column of a trigger row. -/
def rowHost (quoted : Bool) (row : RowRole) (column : String) : String :=
  "value(" ++ (match row with
    | .old => "oldRow"
    | _ => "newRow") ++ ", " ++ Text.javaLiteral ((h2 quoted).catalogColumn column) ++ ")"

/-- A choice between values, each under a test. -/
def choice (branches : List (String × String)) (otherwise : String) : String :=
  "CASE" ++ String.join (branches.map fun b => " WHEN " ++ b.1 ++ " THEN " ++ b.2)
    ++ " ELSE " ++ otherwise ++ " END"

def nullIfEmpty (text : String) : String := "NULLIF(" ++ text ++ ", '')"

def substring (text : String) (start length : Nat) : String :=
  "SUBSTRING" ++ "(" ++ text ++ ", " ++ toString start ++ ", " ++ toString length ++ ")"

def substringFrom (text : String) (start : Nat) : String :=
  "SUBSTRING" ++ "(" ++ text ++ ", " ++ toString start ++ ")"

def concat (texts : List String) : String := " || ".intercalate texts

/-- The value cut to the length that a change record holds. -/
def truncated (value : Recorder String) : Recorder String := do
  let measured ← value
  let cut ← value
  let whole ← value
  let tooLong := "LENGTH(" ++ measured ++ ")" ++ " > " ++ toString Plan.maxValueLength
  let shortened := concat [substring cut 1 Plan.truncatedLength, Text.sqlLiteral Plan.ellipsis]
  pure (choice [(tooLong, shortened)] whole)

def booleanName (value : Recorder String) : Recorder String := do
  let testedNull ← value
  let testedTrue ← value
  pure (choice
    [(testedNull ++ " IS NULL", "NULL"),
      (testedTrue ++ " IN ('TRUE', 'true', '1')", Text.sqlLiteral "true")]
    (Text.sqlLiteral "false"))

/-- The value under a text rule. -/
def encoded : TextRule → Recorder String → Recorder String
  | .booleanText, value => booleanName value
  | .truncated, value => truncated value
  | .cast _, value => do
      let text ← value
      pure ("CAST(" ++ text ++ " AS VARCHAR)")

/-- The values differ, where nothing equals nothing and differs from everything else. -/
def changed (old new : Recorder String) : Recorder String := do
  let o1 ← old
  let n1 ← new
  let o2 ← old
  let n2 ← new
  let o3 ← old
  let n3 ← new
  let differ := " OR ".intercalate [o1 ++ " <> " ++ n1, o2 ++ " IS NULL", n2 ++ " IS NULL"]
  let missing := " AND ".intercalate [o3 ++ " IS NULL", n3 ++ " IS NULL"]
  pure ("(" ++ " AND ".intercalate ["(" ++ differ ++ ")", "NOT (" ++ missing ++ ")"] ++ ")")

/-- The parts as one key. -/
def key (parts : List (Recorder String)) : Recorder String := do
  let texts ← parts.mapM id
  pure (concat (texts.intersperse (Text.sqlLiteral Plan.keySeparator)))

/-- A part of a phrase with the separator in front, or the empty text. -/
def phrasePart (text : String) : String :=
  "COALESCE(" ++ concat [Text.sqlLiteral Plan.listSeparator, nullIfEmpty text] ++ ", '')"

/-- The parts behind one another, less the first separator. -/
def joined (parts : List (Recorder String)) : Recorder String := do
  let texts ← parts.mapM id
  pure (substringFrom (concat (texts.map phrasePart)) (Plan.listSeparator.length + 1))

/-- The parts that are not empty, as one phrase. -/
def phrase : List (Recorder String) → Recorder String
  | [part] => nullIfEmpty <$> part
  | parts => nullIfEmpty <$> joined parts

/-- The first part that is there. -/
def firstOf (parts : List (Recorder String)) : Recorder String := do
  let texts ← parts.mapM id
  pure ("COALESCE(" ++ ", ".intercalate texts ++ ")")

/-- The column has the value. -/
def condition (quoted : Bool) (column : String) (value : Recorder String) : Recorder String := do
  let text ← value
  pure ((h2 quoted).columnName column ++ " = " ++ text)

/-- All conditions hold. -/
def conditions (ws : List (Recorder String)) : Recorder String := do
  let texts ← ws.mapM id
  pure (" AND ".intercalate texts)

def lookup (quoted : Bool) (entity column : String) (filters : List (Recorder String)) :
    Recorder String := do
  let text ← conditions filters
  pure ("(SELECT " ++ (h2 quoted).columnName column ++ " FROM " ++ (h2 quoted).tableName entity
    ++ " WHERE " ++ text ++ ")")

mutual

/-- Write a value expression. -/
def expr (quoted : Bool) : Expr → Recorder String
  | .null => pure "NULL"
  | .text value => pure (Text.sqlLiteral value)
  | .column row name => parameter (rowHost quoted row name)
  | .variable name => parameter name
  | .locale => pure (userVariable "changelog.locale")
  | .lookup entity name filters => lookup quoted entity name (filterConditions quoted filters)
  | .keyJoin parts => key (exprs quoted parts)
  | .listJoin parts => phrase (exprs quoted parts)
  | .firstOf parts => firstOf (exprs quoted parts)
  | .encoded rule inner => encoded rule (expr quoted inner)

def exprs (quoted : Bool) : List Expr → List (Recorder String)
  | [] => []
  | e :: es => expr quoted e :: exprs quoted es

def filterConditions (quoted : Bool) : List (String × Expr) → List (Recorder String)
  | [] => []
  | (name, e) :: filters =>
      condition quoted name (expr quoted e) :: filterConditions quoted filters

end

/-- The conditions with a connective between them. -/
def group (connective empty : String) (ws : List (Recorder String)) : Recorder String :=
  if ws.isEmpty then pure empty
  else do
    let texts ← ws.mapM id
    pure ("(" ++ connective.intercalate texts ++ ")")

mutual

/-- Write a guard. -/
def guard (quoted : Bool) : Guard → Recorder String
  | .notNull value => do
      let text ← expr quoted value
      pure (text ++ " IS NOT NULL")
  | .changed old new => changed (expr quoted old) (expr quoted new)
  | .any gs => group " OR " "1 = 0" (guards quoted gs)
  | .all gs => group " AND " "1 = 1" (guards quoted gs)
  | .negate inner => do
      let text ← guard quoted inner
      pure ("NOT (" ++ text ++ ")")
  | .flag name => pure ("COALESCE(" ++ userVariable name ++ ", 'false') = 'true'")

def guards (quoted : Bool) : List Guard → List (Recorder String)
  | [] => []
  | g :: gs => guard quoted g :: guards quoted gs

end

theorem exprs_eq_map (quoted : Bool) (es : List Expr) : exprs quoted es = es.map (expr quoted) := by
  induction es with
  | nil => simp [exprs]
  | cons e es ih => simp [exprs, ih]

theorem filterConditions_eq_map (quoted : Bool) (filters : List (String × Expr)) :
    filterConditions quoted filters =
      filters.map fun f => condition quoted f.1 (expr quoted f.2) := by
  induction filters with
  | nil => simp [filterConditions]
  | cons f filters ih => simp [filterConditions, ih]

theorem guards_eq_map (quoted : Bool) (gs : List Guard) :
    guards quoted gs = gs.map (guard quoted) := by
  induction gs with
  | nil => simp [guards]
  | cons g gs ih => simp [guards, ih]

/-! ## What is written -/

/-- Writing gives what is sent of the fragment, and notes the host expressions of its parameters
behind those that are noted already. -/
def Writes (w : Recorder String) (f : Fragment) : Prop :=
  ∀ noted, w.run noted = pure (f.sent, noted ++ f.parameters)

theorem writes_pure (text : String) : Writes (pure text) (.ofText text) := by
  intro noted
  simp [Fragment.sent_ofText]

/-- What is noted on the way comes in the order of the steps. -/
theorem run_mapM {ws : List (Recorder String)} {fs : List Fragment}
    (h : List.Forall₂ Writes ws fs) (noted : List String) :
    (ws.mapM id).run noted =
      pure (fs.map Fragment.sent, noted ++ fs.flatMap Fragment.parameters) := by
  -- Each step begins with what the steps before it have noted.
  induction h generalizing noted with
  | nil => simp
  | cons hw _ ih => simp [hw _, ih]

/-! ## The spelling rules -/

section Rules

variable {quoted : Bool} (f : Fragment)

theorem sent_isTrue : ((h2 quoted).isTrue f).sent = f.sent ++ " IN ('TRUE', 'true', '1')" := by
  have hconstants : (", ".intercalate ([Constant.text "TRUE", .text "true", .text "1"].map
      Constant.spelling)) = "'TRUE', 'true', '1'" := by decide
  have htrue : (h2 quoted).isTrue f = f ++ (.ofText " IN (" ++ .ofText (", ".intercalate
    ([Constant.text "TRUE", .text "true", .text "1"].map Constant.spelling)) ++ .ofText ")") := rfl
  rw [htrue, Fragment.sent_append, hconstants]
  rfl

theorem parameters_isTrue : ((h2 quoted).isTrue f).parameters = f.parameters :=
  Fragment.parameters_append.trans (List.append_nil _)

end Rules

attribute [local simp] Fragment.sent_append Fragment.sent_ofText Fragment.sent_ofParameter
  Fragment.sent_join Fragment.parameters_join Dialect.length Dialect.concat
  Dialect.substring String.append_assoc Term.fragment Term.fragments Term.branchFragment
  Term.testFragment Term.testFragments sent_isTrue parameters_isTrue Fragment.sent_nil
  Fragment.parameters_nil

variable {quoted : Bool}

theorem writes_parameter (host : String) : Writes (parameter host)
    (.ofText "CAST(" ++ .ofParameter host ++ .ofText " AS VARCHAR)") := by
  intro noted
  simp [parameter]

theorem Writes.encoded {w : Recorder String} {t : Term} (h : Writes w (t.fragment (h2 quoted)))
    (rule : TextRule) : Writes (encoded rule w) ((Term.encoded rule t).fragment (h2 quoted)) := by
  have hname : (h2 quoted).substringName = "SUBSTRING" := rfl
  have hcast (valueClass : Tracking.ValueClass) (f : Fragment) :
      (h2 quoted).textCast valueClass f = .ofText "CAST(" ++ f ++ .ofText " AS VARCHAR)" := rfl
  intro noted
  cases rule with
  | truncated =>
      simp [Recorder.encoded, Recorder.truncated, h _, Term.encoded, Term.truncated, choice,
        concat, substring, hname, -String.reduceAppend]
  | booleanText =>
      simp [Recorder.encoded, Recorder.booleanName, h _, Term.encoded, Term.booleanName, choice,
        -String.reduceAppend]
  | cast valueClass => simp [Recorder.encoded, h _, Term.encoded, hcast]

theorem Writes.changed {old new : Recorder String} {s t : Term}
    (hold : Writes old (s.fragment (h2 quoted))) (hnew : Writes new (t.fragment (h2 quoted))) :
    Writes (changed old new) (Term.testFragment (h2 quoted) (Test.changed s t)) := by
  intro noted
  simp [Recorder.changed, hold _, hnew _, Test.changed, -String.reduceAppend]

/-- The programs write the terms, each its own. -/
def WritesTerms (quoted : Bool) (ws : List (Recorder String)) (ts : List Term) : Prop :=
  List.Forall₂ (fun w t => Writes w (t.fragment (h2 quoted))) ws ts

theorem WritesTerms.fragments {ws : List (Recorder String)} {ts : List Term}
    (h : WritesTerms quoted ws ts) : List.Forall₂ Writes ws (Term.fragments (h2 quoted) ts) := by
  rw [Term.fragments_eq_map]
  exact List.forall₂_map_right_iff.mpr h

theorem Writes.nullIfEmpty {w : Recorder String} {t : Term}
    (h : Writes w (t.fragment (h2 quoted))) :
    Writes (Recorder.nullIfEmpty <$> w) ((Term.nullIfEmpty t).fragment (h2 quoted)) := by
  intro noted
  simp [h _, Recorder.nullIfEmpty, Dialect.nullIfEmpty]

/-- Separators are no parameters. -/
theorem fragments_keyParts (quoted : Bool) (ts : List Term) :
    (Term.fragments (h2 quoted) (Term.keyParts ts)).map Fragment.sent =
        ((Term.fragments (h2 quoted) ts).map Fragment.sent).intersperse
          (Text.sqlLiteral Plan.keySeparator) ∧
      (Term.fragments (h2 quoted) (Term.keyParts ts)).flatMap Fragment.parameters =
        (Term.fragments (h2 quoted) ts).flatMap Fragment.parameters := by
  fun_induction Term.keyParts ts with
  | case1 => exact ⟨rfl, rfl⟩
  | case2 part => exact ⟨rfl, rfl⟩
  | case3 part parts hparts ih =>
      obtain ⟨hsent, hparameters⟩ := ih
      obtain ⟨next, rest, rfl⟩ := List.exists_cons_of_ne_nil hparts
      constructor
      · simp only [Term.fragments, List.map_cons, Fragment.sent_ofText, Term.fragment,
          List.intersperse_cons_cons] at hsent ⊢
        rw [hsent]
      · simp [hparameters]

theorem writes_key {ws : List (Recorder String)} {ts : List Term} (h : WritesTerms quoted ws ts) :
    Writes (key ws) ((Term.concat (Term.keyParts ts)).fragment (h2 quoted)) := by
  intro noted
  obtain ⟨hsent, hparameters⟩ := fragments_keyParts quoted ts
  simp [key, run_mapM h.fragments, concat, hsent, hparameters]

theorem fragment_phrasePart (t : Term) :
    ((Term.phrasePart t).fragment (h2 quoted)).sent = phrasePart (t.fragment (h2 quoted)).sent ∧
      ((Term.phrasePart t).fragment (h2 quoted)).parameters =
        (t.fragment (h2 quoted)).parameters := by
  have hempty : ", " ++ (Text.sqlLiteral "" ++ ")") = ", '')" := by decide
  constructor
  · simp [Term.phrasePart, phrasePart, Dialect.coalesce, Dialect.nullIfEmpty, concat, nullIfEmpty,
      hempty, -String.reduceAppend]
  · simp [Term.phrasePart, Dialect.coalesce, Dialect.nullIfEmpty]

theorem writes_joined {ws : List (Recorder String)} {ts : List Term}
    (h : WritesTerms quoted ws ts) : Writes (joined ws)
      ((Term.substring (.concat (ts.map Term.phrasePart)) (Plan.listSeparator.length + 1)
        none).fragment (h2 quoted)) := by
  have hname : (h2 quoted).substringName = "SUBSTRING" := rfl
  intro noted
  simp [joined, run_mapM h.fragments, Term.fragments_eq_map, Function.comp_def,
    List.flatMap_map, fragment_phrasePart, substringFrom, concat, hname, -String.reduceAppend]

theorem writes_phrase {ws : List (Recorder String)} {ts : List Term}
    (h : WritesTerms quoted ws ts) :
    Writes (phrase ws) ((Term.phrase ts).fragment (h2 quoted)) := by
  -- A single part stands for itself; any other number of parts is joined.
  match h with
  | .nil => exact (writes_joined .nil).nullIfEmpty
  | .cons hw .nil => exact hw.nullIfEmpty
  | .cons hw (.cons hw' hws) => exact (writes_joined (.cons hw (.cons hw' hws))).nullIfEmpty

theorem writes_firstOf {ws : List (Recorder String)} {ts : List Term}
    (h : WritesTerms quoted ws ts) :
    Writes (firstOf ws) ((Term.coalesce ts).fragment (h2 quoted)) := by
  intro noted
  simp [firstOf, run_mapM h.fragments, Dialect.coalesce]

theorem writes_conditions {ws : List (Recorder String)} {fs : List Fragment}
    (h : List.Forall₂ Writes ws fs) : Writes (conditions ws) (.join " AND " fs) := by
  intro noted
  simp [conditions, run_mapM h]

theorem Writes.condition {w : Recorder String} {f : Fragment} (h : Writes w f) (column : String) :
    Writes (condition quoted column w) (.ofText ((h2 quoted).columnName column ++ " = ") ++ f) := by
  intro noted
  simp [Recorder.condition, h _]

theorem writes_lookup (entity column : String)
    {ws : List (Recorder String)} {filters : List (String × Term)}
    (h : List.Forall₂ Writes ws (Term.filterFragments (h2 quoted) filters)) :
    Writes (lookup quoted entity column ws)
      ((Term.scalar (.from entity column filters)).fragment (h2 quoted)) := by
  intro noted
  simp [Recorder.lookup, writes_conditions h _]

/-- Writing an expression gives its text, and notes its parameters in the order of the text. -/
theorem writes_expr (e : Expr) : Writes (expr quoted e) ((h2 quoted).render e) := by
  have hall {parts : List Expr}
      (ih : ∀ e ∈ parts, Writes (expr quoted e) ((h2 quoted).render e)) :
      WritesTerms quoted (exprs quoted parts) (Term.ofExprs (h2 quoted) parts) := by
    rw [exprs_eq_map, Term.ofExprs_eq_map]
    exact List.forall₂_map_left_iff.mpr (List.forall₂_map_right_iff.mpr (List.forall₂_same.mpr ih))
  induction e using Expr.inductOn with
  | null => exact writes_pure _
  | text value => exact writes_pure _
  -- The host expression has the name as the catalog has it, folded or not.
  | column row name => cases quoted <;> exact writes_parameter _
  | ofLocal name => exact writes_parameter name
  | locale => exact writes_pure _
  | lookup entity name filters ih =>
      rw [Dialect.render, Term.ofExpr, Term.ofFilters_eq_map]
      refine writes_lookup entity name ?_
      rw [filterConditions_eq_map, Term.filterFragments_eq_map, List.map_map,
        List.forall₂_map_left_iff, List.forall₂_map_right_iff]
      exact List.forall₂_same.mpr fun f hf => (ih f hf).condition f.1
  | keyJoin parts ih => exact writes_key (hall ih)
  | listJoin parts ih => exact writes_phrase (hall ih)
  | firstOf parts ih => exact writes_firstOf (hall ih)
  | encoded rule inner ih => exact ih.encoded rule

theorem writes_group (connective empty : String) {w : Recorder String}
    {ws : List (Recorder String)} {fs : List Fragment} (h : List.Forall₂ Writes (w :: ws) fs) :
    Writes (group connective empty (w :: ws))
      (.ofText "(" ++ .join connective fs ++ .ofText ")") := by
  have hgroup : group connective empty (w :: ws) =
      (w :: ws).mapM id >>= fun texts => pure ("(" ++ connective.intercalate texts ++ ")") := rfl
  intro noted
  simp [hgroup, run_mapM h, -List.mapM_cons]

/-- Writing a guard gives its text, and notes its parameters in the order of the text. -/
theorem writes_guard (g : Guard) : Writes (guard quoted g) ((h2 quoted).renderGuard g) := by
  have hall {gs : List Guard}
      (ih : ∀ g ∈ gs, Writes (guard quoted g) ((h2 quoted).renderGuard g)) :
      List.Forall₂ Writes (guards quoted gs)
        (Term.testFragments (h2 quoted) (Test.ofGuards (h2 quoted) gs)) := by
    rw [guards_eq_map, Test.ofGuards_eq_map, Term.testFragments_eq_map, List.map_map,
      List.forall₂_map_left_iff, List.forall₂_map_right_iff]
    exact List.forall₂_same.mpr ih
  induction g using Guard.inductOn with
  | notNull value =>
      intro noted
      simp [guard, writes_expr value _, Dialect.renderGuard, Test.ofGuard, Dialect.render]
  | changed old new => exact (writes_expr old).changed (writes_expr new)
  | any gs ih =>
      -- An empty group is a constant, which notes nothing.
      cases gs with
      | nil => exact writes_pure _
      | cons g gs => exact writes_group " OR " _ (hall ih)
  | all gs ih =>
      cases gs with
      | nil => exact writes_pure _
      | cons g gs => exact writes_group " AND " _ (hall ih)
  | negate inner ih =>
      intro noted
      simp [guard, ih _, Dialect.renderGuard, Test.ofGuard]
  | flag name =>
      have hsession : (h2 quoted).sessionValue name = .ofText (userVariable name) := rfl
      have htail : ", " ++ (Text.sqlLiteral "false" ++ (")" ++ (" = " ++ Text.sqlLiteral "true"))) =
          ", 'false') = 'true'" := by decide
      intro noted
      simp [guard, Dialect.renderGuard, Test.ofGuard, Test.flag, Dialect.coalesce, hsession, htail,
        -String.reduceAppend]

end Recorder

end ChangeTracking.Sql
