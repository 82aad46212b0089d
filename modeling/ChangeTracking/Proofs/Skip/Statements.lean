import ChangeTracking.Proofs.Skip.Names
import ChangeTracking.Proofs.Sql.Spelling
import ChangeTracking.Skip.Document

/-!
# What session updates do

A database reads the statements that set and clear flags, and the test by which triggers
ask for one, as tokens.  Each of them is about one session value, which it names in quotes
or, as a user variable, bare.  For the name of a flag the three are about the same session
value, and no other flag shares it.
-/

namespace ChangeTracking.Skip

open Sql (Dialect Fragment)
open Sql.Engine (Token tokens Opens Reads reads_of_tokens reads_sqlLiteral startsDelimited isLetter)

/-! ## Reading -/

/-- The character may stand in the bare name of a user variable. -/
def inVariable (c : Char) : Bool := isLetter c || c.isDigit

/-- The tokens of a text with one user variable.  The name of the variable matches in any
letter case and becomes a name in upper case. -/
def variableTokens (sql : String) : Option (List Token) :=
  let before := sql.toList.takeWhile (· != '@')
  match sql.toList.dropWhile (· != '@') with
  | [] => none
  | _ :: rest => do
      let front ← tokens (String.ofList before)
      let back ← tokens (String.ofList (rest.dropWhile inVariable))
      return front ++ .name (String.ofList (rest.takeWhile inVariable)).toUpper :: back

/-- The tokens that the database reads. -/
def sessionTokens (backend : Backend) (sql : String) : Option (List Token) :=
  match backend with
  | .h2 => variableTokens sql
  | _ => tokens sql

/-- The session value that a statement assigns, and what it assigns to it.  The settings of
PostgreSQL match in any letter case. -/
def assignment? (backend : Backend) (ts : List Token) : Option (String × Option String) :=
  match backend, ts with
  | .hana, [.word "SET", .text key, .equals, .text value] => some (key, some value)
  | .hana, [.word "UNSET", .text key] => some (key, none)
  | .h2, [.word "SET", .name key, .equals, .text value] => some (key, some value)
  | .h2, [.word "SET", .name key, .equals, .word "NULL"] => some (key, none)
  | .postgres, [.word "SELECT", .word "SET_CONFIG", .opening, .text key, .comma, .text value,
      .comma, .word "TRUE", .closing] => some (key.toLower, some value)
  | _, _ => none

/-- The session value that an update changes, and its new content. -/
def assigned? (backend : Backend) : SessionUpdate → Option (String × Option String)
  | .host key value => if backend = .sqlite then some (key, value) else none
  | .sql statement => (sessionTokens backend statement).bind (assignment? backend)

/-- The session value that an expression compares with the text `true`, a missing one being
taken for `false`. -/
def comparison? (backend : Backend) (ts : List Token) : Option String :=
  match backend, ts with
  | .h2, [.word "COALESCE", .opening, .name key, .comma, .text "false", .closing, .equals,
      .text "true"] => some key
  | .postgres, [.word "COALESCE", .opening, .word "CURRENT_SETTING", .opening, .text key, .comma,
      .word "TRUE", .closing, .comma, .text "false", .closing, .equals, .text "true"] =>
        some key.toLower
  | .postgres, _ => none
  | .h2, _ => none
  | _, [.word "COALESCE", .opening, .word "SESSION_CONTEXT", .opening, .text key, .closing, .comma,
      .text "false", .closing, .equals, .text "true"] => some key
  | _, _ => none

/-- The session value by which a trigger knows whether a flag is set. -/
def tested? (backend : Backend) (quoted : Bool) (flag : String) : Option String :=
  (sessionTokens backend ((Dialect.of backend quoted).flagSet flag).sent).bind
    (comparison? backend)

/-! ## Texts with a name -/

theorem variableTokens_spliced {before name after : String} {front back : List Token}
    (hbefore : before.toList.all (· != '@') = true) (hname : name.toList.all inVariable = true)
    (hafter : after.toList.head?.any inVariable = false) (hfront : tokens before = some front)
    (hback : tokens after = some back) :
    variableTokens (before ++ ("@" ++ name) ++ after) =
      some (front ++ .name name.toUpper :: back) := by
  have hsplit : (before ++ ("@" ++ name) ++ after).toList =
      before.toList ++ '@' :: (name.toList ++ after.toList) := by simp
  have hname := List.all_eq_true.mp hname
  have hrest : after.toList.takeWhile inVariable = [] ∧
      after.toList.dropWhile inVariable = after.toList := by
    cases hchars : after.toList with
    | nil => exact ⟨rfl, rfl⟩
    | cons c cs =>
        have hc : inVariable c = false := by simpa [hchars] using hafter
        simp [hc]
  rw [variableTokens, hsplit, List.takeWhile_append_of_pos (List.all_eq_true.mp hbefore),
    List.dropWhile_append_of_pos (List.all_eq_true.mp hbefore)]
  simp [List.takeWhile_append_of_pos hname, List.dropWhile_append_of_pos hname, hrest.1, hrest.2,
    hfront, hback]

/-! ## Flag names in texts -/

theorem toNat_lt_of_isPlain {c : Char} (h : isPlain c = true) : c.toNat < 128 := by
  simp only [isPlain, Bool.or_eq_true, beq_iff_eq] at h
  rcases h with (h | h) | rfl
  · have hle : c.val ≤ 'z'.val := of_decide_eq_true (Bool.and_eq_true_iff.mp h).2
    exact Nat.lt_of_le_of_lt (UInt32.le_iff_toNat_le.mp hle) (by decide)
  · have hle : c.val ≤ '9'.val := of_decide_eq_true (Bool.and_eq_true_iff.mp h).2
    exact Nat.lt_of_le_of_lt (UInt32.le_iff_toNat_le.mp hle) (by decide)
  · decide

/-- What plain characters are to user variables, to texts and to either letter case. -/
structure PlainFacts (c : Char) : Prop where
  variable_eq : Sql.foldVariableChar c = c
  inVariable : inVariable c = true
  toLower_eq : c.toLower = c
  toLower_toUpper : c.toUpper.toLower = c
  ne_quote : c ≠ '\''

theorem plainFacts {c : Char} (h : isPlain c = true) : PlainFacts c := by
  have hchars : ∀ n < 128, isPlain (Char.ofNat n) = true →
      Sql.foldVariableChar (Char.ofNat n) = Char.ofNat n ∧ inVariable (Char.ofNat n) = true ∧
        (Char.ofNat n).toLower = Char.ofNat n ∧ (Char.ofNat n).toUpper.toLower = Char.ofNat n ∧
        Char.ofNat n ≠ '\'' := by
    decide +kernel
  have hc := hchars c.toNat (toNat_lt_of_isPlain h)
  rw [Char.ofNat_toNat] at hc
  obtain ⟨h₁, h₂, h₃, h₄, h₅⟩ := hc h
  exact ⟨h₁, h₂, h₃, h₄, h₅⟩

namespace Scope

variable (s : Scope)

theorem plainFacts_of_mem_stem : ∀ c ∈ s.stem.toList, PlainFacts c := fun c hc =>
  plainFacts (List.all_eq_true.mp s.all_isPlain_stem c hc)

/-- Between quotes the name of a flag is the text that spells it. -/
theorem sqlLiteral_flagName : Text.sqlLiteral s.flagName = "'" ++ s.flagName ++ "'" := by
  have hstart : "changelog.".toList.all (· != '\'') = true := by decide
  have hchars : ∀ c ∈ s.flagName.toList, (if c = '\'' then ['\'', '\''] else [c]) = [c] := by
    intro c hc
    rw [flagName_eq, String.toList_append, List.mem_append] at hc
    refine if_neg ?_
    rcases hc with hc | hc
    · exact bne_iff_ne.mp (List.all_eq_true.mp hstart c hc)
    · exact (s.plainFacts_of_mem_stem c hc).ne_quote
  apply String.toList_inj.mp
  rw [Text.sqlLiteral, Text.doubled, String.toList_ofList, List.flatMap_congr hchars]
  simp

theorem userVariable_flagName : Sql.userVariable s.flagName = "@" ++ ("changelog_" ++ s.stem) := by
  have hchars : ∀ c ∈ s.stem.toList, Sql.foldVariableChar c = id c := fun c hc =>
    (s.plainFacts_of_mem_stem c hc).variable_eq
  have hdot : "changelog.".toList.map Sql.foldVariableChar = "changelog_".toList := by decide
  apply String.toList_inj.mp
  rw [Sql.userVariable, flagName_eq, String.toList_ofList, String.toList_append, List.map_append,
    List.map_congr_left hchars, List.map_id, hdot]
  simp

theorem toLower_flagName : s.flagName.toLower = s.flagName := by
  have hchars : ∀ c ∈ s.stem.toList, c.toLower = id c := fun c hc =>
    (s.plainFacts_of_mem_stem c hc).toLower_eq
  apply String.toList_inj.mp
  rw [Text.toList_toLower, flagName_eq, String.toList_append, List.map_append,
    List.map_congr_left hchars, List.map_id]
  rfl

/-- The session value in which a database keeps a flag. -/
def sessionKey (backend : Backend) : String :=
  match backend with
  | .h2 => ("changelog_" ++ s.stem).toUpper
  | _ => s.flagName

end Scope

/-- What a session value holds once its flag is cleared. -/
def clearedValue : Backend → Option String
  | .postgres => some ""
  | _ => none

/-- A quoted text is read whole, whatever stands around. -/
theorem tokens_sqlLiteral (value : String) {before after : String} {front back : List Token}
    (hfront : Opens before.toList front) (hback : tokens after = some back)
    (hdelimited : startsDelimited after.toList = true) :
    tokens (before ++ Text.sqlLiteral value ++ after) = some (front ++ .text value :: back) := by
  apply Reads.tokens_eq
  rw [String.toList_append, String.toList_append, List.append_assoc]
  exact hfront.append_reads ((reads_sqlLiteral value).append (reads_of_tokens hback) hdelimited)

theorem tokens_flagName (s : Scope) {start before after rest : String} {front back : List Token}
    (hstart : start = before ++ "'") (hrest : rest = "'" ++ after)
    (hfront : Opens before.toList front) (hback : tokens after = some back)
    (hdelimited : startsDelimited after.toList = true) :
    tokens (start ++ s.flagName ++ rest) = some (front ++ .text s.flagName :: back) := by
  rw [← tokens_sqlLiteral s.flagName hfront hback hdelimited, hstart, hrest, s.sqlLiteral_flagName]
  simp only [String.append_assoc]

/-- The variable of a flag is read whole, whatever stands around. -/
theorem variableTokens_flagName (s : Scope) {before after : String} {front back : List Token}
    (hbefore : before.toList.all (· != '@') = true)
    (hafter : after.toList.head?.any inVariable = false) (hfront : tokens before = some front)
    (hback : tokens after = some back) :
    variableTokens (before ++ Sql.userVariable s.flagName ++ after) =
      some (front ++ .name (s.sessionKey .h2) :: back) := by
  have hname : ("changelog_" ++ s.stem).toList.all inVariable = true := by
    rw [String.toList_append, List.all_append, Bool.and_eq_true]
    exact ⟨by decide, List.all_eq_true.mpr fun c hc => (s.plainFacts_of_mem_stem c hc).inVariable⟩
  rw [s.userVariable_flagName]
  exact variableTokens_spliced hbefore hname hafter hfront hback

/-! ## What the statements are about -/

theorem assigned?_setFlag (backend : Backend) (s : Scope) :
    assigned? backend (setFlag backend s.flagName) = some (s.sessionKey backend, some "true") := by
  have hequals : tokens " = 'true'" = some [.equals, .text "true"] := by decide
  cases backend with
  | sqlite => rfl
  | hana =>
      have hstart : "SET '" = "SET " ++ "'" := rfl
      have hrest : "' = 'true'" = "'" ++ " = 'true'" := rfl
      have hset : Opens "SET ".toList [.word "SET"] := fun _ => rfl
      have htokens := tokens_flagName s hstart hrest hset hequals rfl
      simp [setFlag, assigned?, sessionTokens, htokens, assignment?, Scope.sessionKey]
  | h2 =>
      have hset : tokens "SET " = some [.word "SET"] := by decide
      have htokens := variableTokens_flagName s (by decide) (by decide) hset hequals
      simp [setFlag, assigned?, sessionTokens, htokens, assignment?]
  | postgres =>
      have hstart : "SELECT set_config('" = "SELECT set_config(" ++ "'" := rfl
      have hrest : "', 'true', true)" = "'" ++ ", 'true', true)" := rfl
      have hset : Opens "SELECT set_config(".toList
          [.word "SELECT", .word "SET_CONFIG", .opening] := fun _ => rfl
      have hvalue : tokens ", 'true', true)" =
          some [.comma, .text "true", .comma, .word "TRUE", .closing] := by decide
      have htokens := tokens_flagName s hstart hrest hset hvalue rfl
      simp [setFlag, assigned?, sessionTokens, htokens, assignment?, Scope.sessionKey,
        s.toLower_flagName]

theorem assigned?_resetFlag (backend : Backend) (s : Scope) :
    assigned? backend (resetFlag backend s.flagName) =
      some (s.sessionKey backend, clearedValue backend) := by
  cases backend with
  | sqlite => rfl
  | hana =>
      have htext : "UNSET '" ++ s.flagName ++ "'" = "UNSET " ++ Text.sqlLiteral s.flagName := by
        rw [s.sqlLiteral_flagName]
        apply String.toList_inj.mp
        simp
      have hunset : Opens "UNSET ".toList [.word "UNSET"] := fun _ => rfl
      have htokens : tokens ("UNSET '" ++ s.flagName ++ "'") =
          some [.word "UNSET", .text s.flagName] := by
        apply Reads.tokens_eq
        rw [htext, String.toList_append]
        exact hunset.append_reads (reads_sqlLiteral s.flagName)
      simp [resetFlag, assigned?, sessionTokens, htokens, assignment?, Scope.sessionKey,
        clearedValue]
  | h2 =>
      have hset : tokens "SET " = some [.word "SET"] := by decide
      have hnull : tokens " = NULL" = some [.equals, .word "NULL"] := by decide
      have htokens := variableTokens_flagName s (by decide) (by decide) hset hnull
      simp [resetFlag, assigned?, sessionTokens, htokens, assignment?, clearedValue]
  | postgres =>
      have hstart : "SELECT set_config('" = "SELECT set_config(" ++ "'" := rfl
      have hrest : "', '', true)" = "'" ++ ", '', true)" := rfl
      have hset : Opens "SELECT set_config(".toList
          [.word "SELECT", .word "SET_CONFIG", .opening] := fun _ => rfl
      have hvalue : tokens ", '', true)" =
          some [.comma, .text "", .comma, .word "TRUE", .closing] := by decide
      have htokens := tokens_flagName s hstart hrest hset hvalue rfl
      simp [resetFlag, assigned?, sessionTokens, htokens, assignment?, Scope.sessionKey,
        s.toLower_flagName, clearedValue]

theorem tested?_flagName (backend : Backend) (quoted : Bool) (s : Scope) :
    tested? backend quoted s.flagName = some (s.sessionKey backend) := by
  have hback : tokens "), 'false') = 'true'" =
      some [.closing, .comma, .text "false", .closing, .equals, .text "true"] := by decide
  cases backend with
  | sqlite =>
      have htext : ((Dialect.of .sqlite quoted).flagSet s.flagName).sent =
          "COALESCE(session_context(" ++ Text.sqlLiteral s.flagName ++ "), 'false') = 'true'" := by
        apply String.toList_inj.mp
        simp [Dialect.of, Dialect.sqlite, Dialect.flagSet, Dialect.coalesce, Fragment.join]
        rfl
      have hfront : Opens "COALESCE(session_context(".toList
          [.word "COALESCE", .opening, .word "SESSION_CONTEXT", .opening] := fun _ => rfl
      have htokens := tokens_sqlLiteral s.flagName hfront hback rfl
      simp [tested?, htext, sessionTokens, htokens, comparison?, Scope.sessionKey]
  | hana =>
      have htext : ((Dialect.of .hana quoted).flagSet s.flagName).sent =
          "COALESCE(SESSION_CONTEXT(" ++ Text.sqlLiteral s.flagName ++ "), 'false') = 'true'" := by
        apply String.toList_inj.mp
        simp [Dialect.of, Dialect.hana, Dialect.flagSet, Dialect.coalesce, Fragment.join]
        rfl
      have hfront : Opens "COALESCE(SESSION_CONTEXT(".toList
          [.word "COALESCE", .opening, .word "SESSION_CONTEXT", .opening] := fun _ => rfl
      have htokens := tokens_sqlLiteral s.flagName hfront hback rfl
      simp [tested?, htext, sessionTokens, htokens, comparison?, Scope.sessionKey]
  | h2 =>
      have htext : ((Dialect.of .h2 quoted).flagSet s.flagName).sent =
          "COALESCE(" ++ Sql.userVariable s.flagName ++ ", 'false') = 'true'" := by
        apply String.toList_inj.mp
        simp [Dialect.of, Dialect.h2, Dialect.flagSet, Dialect.coalesce, Fragment.join]
        rfl
      have hfront : tokens "COALESCE(" = some [.word "COALESCE", .opening] := by decide
      have hrest : tokens ", 'false') = 'true'" =
          some [.comma, .text "false", .closing, .equals, .text "true"] := by decide
      have htokens := variableTokens_flagName s (by decide) (by decide) hfront hrest
      simp [tested?, htext, sessionTokens, htokens, comparison?]
  | postgres =>
      have htext : ((Dialect.of .postgres quoted).flagSet s.flagName).sent =
          "COALESCE(current_setting(" ++ Text.sqlLiteral s.flagName
            ++ ", true), 'false') = 'true'" := by
        apply String.toList_inj.mp
        simp [Dialect.of, Dialect.postgres, Dialect.flagSet, Dialect.coalesce, Fragment.join]
        rfl
      have hfront : Opens "COALESCE(current_setting(".toList
          [.word "COALESCE", .opening, .word "CURRENT_SETTING", .opening] := fun _ => rfl
      have hrest : tokens ", true), 'false') = 'true'" =
          some [.comma, .word "TRUE", .closing, .comma, .text "false", .closing, .equals,
            .text "true"] := by decide
      have htokens := tokens_sqlLiteral s.flagName hfront hrest rfl
      simp [tested?, htext, sessionTokens, htokens, comparison?, Scope.sessionKey,
        s.toLower_flagName]

/-- The name of a user variable is known from its upper case. -/
theorem toLower_toUpper_variable (s : Scope) :
    ("changelog_" ++ s.stem).toUpper.toLower = "changelog_" ++ s.stem := by
  have hchars : ∀ c ∈ s.stem.toList, c.toUpper.toLower = id c := fun c hc =>
    (s.plainFacts_of_mem_stem c hc).toLower_toUpper
  have hstart : "changelog_".toList.map (fun c => c.toUpper.toLower) = "changelog_".toList := by
    decide
  apply String.toList_inj.mp
  rw [Text.toList_toLower, Text.toList_toUpper, List.map_map, String.toList_append,
    List.map_append]
  simp only [Function.comp_def]
  rw [hstart, List.map_congr_left hchars, List.map_id]

/-- No two flags share a session value. -/
theorem sessionKey_inj (backend : Backend) {s t : Scope} :
    s.sessionKey backend = t.sessionKey backend ↔ s.flagName = t.flagName := by
  cases backend with
  | h2 =>
      constructor
      · intro h
        have hvariable : "changelog_" ++ s.stem = "changelog_" ++ t.stem := by
          rw [← toLower_toUpper_variable s, ← toLower_toUpper_variable t]
          exact congrArg String.toLower h
        rw [s.flagName_eq, t.flagName_eq, (String.append_right_inj _).mp hvariable]
      · intro h
        rw [s.flagName_eq, t.flagName_eq, String.append_right_inj] at h
        rw [Scope.sessionKey, Scope.sessionKey, h]
  | _ => exact Iff.rfl

theorem Scope.all_inFlagName (s : Scope) :
    (s.flagName.toList.all fun c => isPlain c || c == '.') = true := by
  rw [flagName_eq, String.toList_append, List.all_append, Bool.and_eq_true]
  refine ⟨by decide, List.all_eq_true.mpr fun c hc => ?_⟩
  rw [List.all_eq_true.mp s.all_isPlain_stem c hc, Bool.true_or]

theorem Scope.count_dot_flagName (s : Scope) : s.flagName.toList.count '.' = 1 := by
  have hstem : s.stem.toList.count '.' = 0 := by
    refine List.count_eq_zero.mpr fun hdot => ?_
    have hplain := List.all_eq_true.mp s.all_isPlain_stem '.' hdot
    cases hplain
  rw [flagName_eq, String.toList_append, List.count_append, hstem]
  rfl

/-- Two flags have one name where their scopes are of one width and name the same up to ASCII
letter case.  A name consists of lower-case letters, digits, underscores and one dot, and
between quotes it is the text that spells it.  In every database the statements that set
and clear a flag and the test for it are about one session value, which belongs to no other
flag. -/
theorem flagName_keeps_scopes_apart (s t : Scope) :
    (s.flagName = t.flagName ↔ s.lower = t.lower) ∧
    (s.flagName.toList.all fun c => isPlain c || c == '.') = true ∧
    s.flagName.toList.count '.' = 1 ∧
    Text.sqlLiteral s.flagName = "'" ++ s.flagName ++ "'" ∧
    ∀ backend quoted, ∃ key,
      assigned? backend (setFlag backend s.flagName) = some (key, some "true") ∧
      assigned? backend (resetFlag backend s.flagName) = some (key, clearedValue backend) ∧
      tested? backend quoted s.flagName = some key ∧
      (tested? backend quoted t.flagName = some key ↔ s.flagName = t.flagName) := by
  refine ⟨Scope.flagName_inj, s.all_inFlagName, s.count_dot_flagName, s.sqlLiteral_flagName, ?_⟩
  intro backend quoted
  refine ⟨s.sessionKey backend, assigned?_setFlag backend s, assigned?_resetFlag backend s,
    tested?_flagName backend quoted s, ?_⟩
  rw [tested?_flagName, Option.some.injEq, eq_comm, sessionKey_inj]

end ChangeTracking.Skip
