import ChangeTracking.Firing.Evaluation
import ChangeTracking.Proofs.Sql.Database
import ChangeTracking.Proofs.Sql.Meaning
import ChangeTracking.Proofs.Sql.Queries
import ChangeTracking.Sql.Term

/-!
# Names of truth values

SQLite and H2 list the texts that mean true, and evaluation has a list of its own.  The text
that names a truth value is built around the text of a value, which stands in it twice and may
hold anything, parameters among it.  So the text around the value is read with the value put in
its places, and whatever the value is, the names agree exactly where the lists do.
-/

namespace ChangeTracking.Sql

open Firing (Scene)
open Plan (Expr)

namespace Engine

/-- `END` closes a choice. -/
theorem Reader.run_end {items : List Item} {value : Value}
    (h : choice? items.reverse = some value) (frame : Frame) (frames : List Frame) :
    Reader.run ⟨none, ⟨.choice, items⟩ :: frame :: frames⟩ [.word "END"] =
      some ⟨none, frame.push (.value value) :: frames⟩ := by
  show (Reader.close? (⟨.choice, items⟩ :: frame :: frames)).bind some = _
  rw [Reader.close?, Bracket.close?, h]
  rfl

/-! ## Texts around a value -/

/-- A part of a text that is built around a value. -/
inductive Part
  | written (text : String)
  /-- A place of the value. -/
  | value

def Part.spelling (inner : String) : Part → String
  | written text => text
  | value => inner

/-- The text with the text of the value in its places. -/
def spelledAround (inner : String) (parts : List Part) : String :=
  String.join (parts.map (Part.spelling inner))

/-- The state of the reader after one more part.  In its places the value is read already. -/
def Reader.take (given : Value) (reader : Reader) : Part → Option Reader
  | .written text => (tokens text).bind reader.run
  | .value => if reader.called.isNone then push? (.value given) reader.frames else none

/-- The value that the text stands for, when the value in its places is the given one. -/
def readAround (given : Value) (parts : List Part) : Option Value :=
  (parts.foldlM (Reader.take given) ⟨none, [⟨.plain, []⟩]⟩).bind fun reader =>
    match reader with
    | ⟨none, [frame]⟩ => value? frame.items.reverse
    | _ => none

end Engine

open Engine

/-! ## Lists of constants -/

namespace Constant

def value : Constant → Value
  | number n => .number n
  | text s => .text s

def scalar : Constant → Scalar
  | number n => .number n
  | text s => .text s

theorem denote_value (c : Constant) (env : Environment) : c.value.denote env = some c.scalar := by
  cases c <;> rfl

theorem text_eq_scalar {v : String} {c : Constant} : Scalar.text v = c.scalar ↔ .text v = c := by
  cases c <;> simp [scalar]

theorem spells_spelling (c : Constant) : Spells c.spelling.toList [.value c.value] := by
  cases c with
  | number n => exact spells_number n
  | text s => exact spells_text s

/-- The items of constants with commas between them. -/
def items (constants : List Constant) : List Item :=
  (constants.map fun c => .value c.value).intersperse (.mark .comma)

variable {constants : List Constant}

theorem spells_items (hne : constants ≠ []) :
    Spells (", ".intercalate (constants.map spelling)).toList (items constants) := by
  induction constants with
  | nil => exact absurd rfl hne
  | cons c rest ih =>
      cases rest with
      | nil => simpa [items] using c.spells_spelling
      | cons c' rest =>
          rw [List.map_cons, List.map_cons, String.intercalate_cons_cons, String.toList_append,
            String.toList_append, List.append_assoc]
          exact c.spells_spelling.glue isGlue_comma (ih (List.cons_ne_nil _ _))

theorem values?_items (hne : constants ≠ []) :
    values? (items constants) = some (constants.map value) := by
  induction constants with
  | nil => exact absurd rfl hne
  | cons c rest ih =>
      cases rest with
      | nil => exact (isChain_value c.value).values?_eq
      | cons c' rest => exact (isChain_value c.value).values?_append (ih (List.cons_ne_nil _ _))

theorem lacks_items (word : String) : Lacks (.word word) (items constants) := by
  induction constants with
  | nil => exact lacks_nil
  | cons c rest ih =>
      cases rest with
      | nil => simp [items, Item.isMark]
      | cons c' rest => simpa [items, Item.isMark] using ih

/-- Between brackets, two constants and more are a list. -/
theorem group?_items (hlength : 2 ≤ constants.length) :
    group? (items constants) = some (.values (constants.map value)) := by
  have hselect : (items constants).any (·.isMark (.word "SELECT")) = false := by
    simpa [Lacks] using lacks_items "SELECT"
  have hcomma : (items constants).any (·.isMark .comma) = true := by
    cases constants with
    | nil => simp at hlength
    | cons c rest =>
        cases rest with
        | nil => simp at hlength
        | cons c' rest => simp [items, Item.isMark]
  have hne : constants ≠ [] := List.ne_nil_of_length_pos (by omega)
  rw [group?, hselect, hcomma, values?_items hne]
  rfl

end Constant

/-! ## The text of a name -/

/-- The text for a test whether a value is one of the constants, behind the value. -/
def membership (constants : List Constant) : String :=
  " IN (" ++ ", ".intercalate (constants.map Constant.spelling) ++ ")"

/-- The text for the name of a truth value, around the text of the value. -/
def nameParts (constants : List Constant) : List Part :=
  [.written "CASE WHEN ", .value, .written " IS NULL THEN NULL WHEN ", .value,
    .written (membership constants ++ " THEN 'true' ELSE 'false' END")]

/-- What the text of the name stands for. -/
def nameValue (constants : List Constant) (value : Value) : Value :=
  .choose (.isNull value) .null
    (.choose (.isIn value (constants.map Constant.value)) (.text "true") (.text "false"))

variable {d : Dialect} {constants : List Constant}

/-- The name of a truth value is written around the text of the value. -/
theorem sent_booleanName (hconstants : d.trueValues = some constants) (t : Term) :
    ((Term.booleanName t).fragment d).sent =
      spelledAround (t.fragment d).sent (nameParts constants) := by
  have htrue : Text.sqlLiteral "true" = "'true'" := by decide
  have hfalse : Text.sqlLiteral "false" = "'false'" := by decide
  rw [← String.toList_inj]
  simp [Term.booleanName, Term.fragment, Term.branchFragment, Term.testFragment, Dialect.isTrue,
    hconstants, spelledAround, nameParts, Part.spelling, membership, htrue, hfalse]

/-- The items up to the test for the constants, where the value reads as some items. -/
def frontItems (items : List Item) : List Item :=
  .mark (.word "WHEN") :: items ++ [.mark (.word "IS"), .mark (.word "NULL"),
    .mark (.word "THEN"), .mark (.word "NULL"), .mark (.word "WHEN")] ++ items

/-- The items of the test for the constants and of what follows up to the end. -/
def backItems (constants : List Constant) : List Item :=
  [.mark (.word "IN"), .values (constants.map Constant.value), .mark (.word "THEN"),
    .value (.text "true"), .mark (.word "ELSE"), .value (.text "false")]

theorem spells_backItems (hlength : 2 ≤ constants.length) :
    Spells ((membership constants).toList ++ " THEN 'true' ELSE 'false'".toList)
      (backItems constants) := by
  have hne : constants ≠ [] := List.ne_nil_of_length_pos (by omega)
  have hin : Leads " IN ".toList [.mark (.word "IN")] :=
    ⟨[.word "IN"], fun _ => rfl, fun _ _ => rfl⟩
  have hnames : Spells " THEN 'true' ELSE 'false'".toList [.mark (.word "THEN"),
      .value (.text "true"), .mark (.word "ELSE"), .value (.text "false")] :=
    ⟨[.word "THEN", .text "true", .word "ELSE", .text "false"], fun _ => ⟨_, rfl, rfl⟩,
      fun _ _ => rfl⟩
  have hlist := (Constant.spells_items hne).group (Constant.group?_items hlength)
  have hwhole := (hin.append_spells hlist).append hnames rfl
  simpa [membership, backItems] using hwhole

/-- Whether the value reads as one item or as a chain, the choice is the same. -/
theorem choice?_name {items : List Item} {values : List Value} (h : IsChain items values) :
    choice? (frontItems items ++ backItems constants) =
      some (nameValue constants (chained values)) := by
  have hnull : IsTest (items ++ [.mark (.word "IS"), .mark (.word "NULL")])
      (.isNull (chained values)) :=
    h.isTest rfl (by decide) rfl
  have hin : IsTest (items ++ [.mark (.word "IN"), .values (constants.map Constant.value)])
      (.isIn (chained values) (constants.map Constant.value)) :=
    h.isTest rfl (by simp [Item.rank]) rfl
  have hnone : IsChain [.mark (.word "NULL")] [.null] := .single rfl (by decide) rfl
  have hchoice := choice?_eq (.cons (.mk hnull.isCondition hnone)
    (.cons (.mk hin.isCondition (isChain_value (.text "true"))) .nil))
    (isChain_value (.text "false"))
  simpa [frontItems, backItems, nameValue, chained] using hchoice

/-- The text of the name is read, whatever the value is. -/
theorem readAround_nameParts (hlength : 2 ≤ constants.length) (value : Value) :
    readAround value (nameParts constants) = some (nameValue constants value) := by
  obtain ⟨ts, hreads, hparses⟩ := spells_backItems hlength
  have hend : Reads " END".toList [.word "END"] := fun before => ⟨_, rfl, rfl⟩
  have htokens : tokens (membership constants ++ " THEN 'true' ELSE 'false' END") =
      some (ts ++ [.word "END"]) := by
    refine Reads.tokens_eq ?_
    simpa using hreads.append hend rfl
  -- Up to the second place of the value the choice is open, and `END` closes it.
  have hfront : [.written "CASE WHEN ", .value, .written " IS NULL THEN NULL WHEN ",
      .value].foldlM (Reader.take value) ⟨none, [⟨.plain, []⟩]⟩ =
        some ⟨none, [⟨.choice, (frontItems [.value value]).reverse⟩, ⟨.plain, []⟩]⟩ := rfl
  have hback : Reader.take value
      ⟨none, [⟨.choice, (frontItems [.value value]).reverse⟩, ⟨.plain, []⟩]⟩
      (.written (membership constants ++ " THEN 'true' ELSE 'false' END")) =
        some ⟨none, [⟨.plain, [.value (nameValue constants value)]⟩]⟩ := by
    rw [Reader.take, htokens, Option.bind_some, Reader.run_append, hparses, Option.bind_some]
    refine Reader.run_end ?_ _ _
    rw [List.reverse_append, List.reverse_reverse, List.reverse_reverse,
      choice?_name (isChain_value value), chained]
  have hparts : nameParts constants = [.written "CASE WHEN ", .value,
      .written " IS NULL THEN NULL WHEN ", .value] ++
        [.written (membership constants ++ " THEN 'true' ELSE 'false' END")] := rfl
  rw [readAround, hparts, List.foldlM_append, hfront]
  simp [hback, (isChain_value _).value?_eq, chained]

/-- Where the text of the value can be read itself, the whole text reads as the same choice. -/
theorem writesValue_booleanName (hconstants : d.trueValues = some constants)
    (hlength : 2 ≤ constants.length) {t : Term} {values : List Value}
    (h : WritesValue (t.fragment d) values) :
    WritesValue ((Term.booleanName t).fragment d) [nameValue constants (chained values)] := by
  obtain ⟨items, hspells, hchain⟩ := h
  have hwhen : IsGlue " WHEN " [.mark (.word "WHEN")] :=
    ⟨⟨[.word "WHEN"], fun _ => rfl, fun _ _ => rfl⟩, rfl⟩
  have hnull : IsGlue " IS NULL THEN NULL WHEN " [.mark (.word "IS"), .mark (.word "NULL"),
      .mark (.word "THEN"), .mark (.word "NULL"), .mark (.word "WHEN")] :=
    ⟨⟨[.word "IS", .word "NULL", .word "THEN", .word "NULL", .word "WHEN"], fun _ => rfl,
      fun _ _ => rfl⟩, rfl⟩
  have hdelimited : startsDelimited
      ((membership constants).toList ++ " THEN 'true' ELSE 'false'".toList) = true := by
    simp [membership, startsDelimited, delimits]
  have hinside := hwhen.leads.append_spells
    (hspells.glue hnull (hspells.append (spells_backItems hlength) hdelimited))
  -- Between the words the items of the value stand twice, and the choice is read around them.
  have hchoice : choice? (.mark (.word "WHEN") :: (items ++ ([.mark (.word "IS"),
      .mark (.word "NULL"), .mark (.word "THEN"), .mark (.word "NULL"), .mark (.word "WHEN")] ++
        (items ++ backItems constants)))) = some (nameValue constants (chained values)) := by
    rw [← choice?_name hchain]
    simp [frontItems]
  refine ⟨_, ?_, isChain_value _⟩
  have hwhole := hinside.choice (startsDelimited_append hwhen.delimited _) hchoice
  rw [sent_booleanName hconstants]
  simpa [spelledAround, nameParts, Part.spelling] using hwhole

/-! ## The two lists -/

/-- A text is in the list for certain, or for certain it is not. -/
theorem truth_isIn {value : Value} {env : Environment} {v : String}
    (h : value.denote env = some (.text v)) :
    (Condition.isIn value (constants.map Constant.value)).truth env =
      some (decide (.text v ∈ constants)) := by
  have hequal : (denoteAll (constants.map Constant.value) env).map
      (Comparison.equal.truth (some (.text v))) =
        (constants.map fun c => .text v == c.scalar).map some := by
    rw [denoteAll_eq_map, List.map_map, List.map_map, List.map_map]
    refine List.map_congr_left fun c _ => ?_
    simp [Constant.denote_value, Comparison.truth, Comparison.holds]
  rw [Condition.truth, h, hequal, some?_map_some, Option.some.injEq, Bool.eq_iff_iff]
  simp [Constant.text_eq_scalar]

/-- The name is that of true where the value is one of the constants. -/
theorem denote_nameValue {value : Value} {env : Environment} {x : Option String}
    (h : value.denote env = x.map .text) :
    (nameValue constants value).denote env =
      (x.map fun v => if .text v ∈ constants then "true" else "false").map .text := by
  rw [nameValue, Value.denote, Condition.truth, h]
  cases x with
  | none => rfl
  | some v =>
      have hthere : ¬some ((some v).map Scalar.text).isNone = some true := by simp
      rw [if_neg hthere, Value.denote, truth_isIn h]
      by_cases hv : .text v ∈ constants
      · simp [hv, Value.denote]
      · simp [hv, Value.denote]

/-- The spellings of true that the list of a database lacks. -/
def overlooked : Backend → List String
  | .sqlite => ["TRUE", "True"]
  | .h2 => ["True"]
  | _ => []

theorem isTrueText_of_mem_overlooked {backend : Backend} {v : String}
    (h : v ∈ overlooked backend) : Plan.isTrueText v = true := by
  have hspellings : ∀ v ∈ overlooked backend, Plan.isTrueText v = true := by
    cases backend <;> decide
  exact hspellings v h

/-- SQLite and H2 list the spellings of true but for those that they overlook. -/
theorem text_mem_trueValues {quoted : Bool} (hd : d = .sqlite quoted ∨ d = .h2 quoted)
    (hconstants : d.trueValues = some constants) (v : String) :
    .text v ∈ constants ↔ Plan.isTrueText v = true ∧ v ∉ overlooked d.backend := by
  rcases hd with rfl | rfl
  · cases hconstants
    simp only [Plan.isTrueText, overlooked, Dialect.sqlite]
    grind
  · cases hconstants
    simp only [Plan.isTrueText, overlooked, Dialect.h2]
    grind

/-- The text for the name of a truth value is written around the text of the value, whatever
expression this is, and is read whatever the value is; also as it stands, if the text of the value
can be read.  It gives the name of true to the constants of the list and that of false to all other
texts, and so it agrees with evaluation exactly where the value is no spelling of true that the list
lacks. -/
theorem booleanName_agrees_iff (quoted : Bool) (hd : d = .sqlite quoted ∨ d = .h2 quoted)
    (hconstants : d.trueValues = some constants) (e : Expr) (value : Value) :
    (d.render (.encoded .booleanText e)).sent =
        spelledAround (d.render e).sent (nameParts constants) ∧
      ∃ name, readAround value (nameParts constants) = some name ∧
        (∀ values, WritesValue (d.render e) values → chained values = value →
          readValue (d.render (.encoded .booleanText e)).sent = some name) ∧
        ∀ (s : Scene) (env : Environment), value.denote env = (s.value e).map .text →
          name.denote env = ((s.value e).map fun v =>
            if .text v ∈ constants then "true" else "false").map .text ∧
          (name.denote env = (s.value (.encoded .booleanText e)).map .text ↔
            ∀ v, s.value e = some v → v ∉ overlooked d.backend) := by
  have hlength : 2 ≤ constants.length := by
    rcases hd with rfl | rfl
    · cases hconstants
      decide
    · cases hconstants
      decide
  refine ⟨sent_booleanName hconstants _, nameValue constants value,
    readAround_nameParts hlength value, ?_, fun s env hvalue => ⟨denote_nameValue hvalue, ?_⟩⟩
  · rintro values hwrites rfl
    exact readValue_sent (writesValue_booleanName hconstants hlength hwrites)
  · rw [denote_nameValue hvalue, Scene.value]
    cases hv : s.value e with
    | none => simp
    | some v =>
        have hlisted := text_mem_trueValues hd hconstants v
        -- The list holds spellings of true only, so they disagree just on those that it lacks.
        by_cases htrue : Plan.isTrueText v = true
        · simp [hlisted, htrue, Plan.TextRule.apply, Plan.booleanName]
        · have hv : v ∉ overlooked d.backend := fun h => htrue (isTrueText_of_mem_overlooked h)
          simp [hlisted, htrue, hv, Plan.TextRule.apply, Plan.booleanName]

/-! ## A member -/

namespace Members

/-- A member whose activity a writer spells in its own way. -/
def written (active : String) : Scene where
  old := none
  new := some ⟨[("ID", "1"), ("active", active)]⟩
  subject := some ⟨[("ID", "1"), ("active", active)]⟩
  store := {}
  skips := {}

/-- What a database makes of the name of a truth value, for a written member. -/
def answered (d : Dialect) (active : String) (e : Expr) : Option (Option Scalar) :=
  (readValue (d.render (.encoded .booleanText e)).sent).map
    (·.denote (environmentOf d (written active) fun _ => none))

/-- A member who is active in a spelling that SQLite lists is active by name. -/
theorem answered_active :
    (Dialect.sqlite false).trueValues = some [.number 1, .text "1", .text "true"] ∧
    (written "true").value (.encoded .booleanText (.column .new "active")) = some "true" ∧
    answered (.sqlite false) "true" (.column .new "active") = some (some (.text "true")) := by
  have hvalue : (Value.rowColumn "NEW" "active").denote
      (environmentOf (.sqlite false) (written "true") fun _ => none) =
        ((written "true").value (.column .new "active")).map .text := by
    decide
  have hwrites : WritesValue ((Dialect.sqlite false).render (.column .new "active"))
      [.rowColumn "NEW" "active"] :=
    writesValue_rowColumn false "active" (.inr rfl)
  have hevaluated :
      (written "true").value (.encoded .booleanText (.column .new "active")) = some "true" := by
    decide
  obtain ⟨-, name, -, hread, hname⟩ := booleanName_agrees_iff false (.inl rfl) rfl
    (.column .new "active") (.rowColumn "NEW" "active")
  have hagrees := (hname _ _ hvalue).2.mpr (by decide)
  refine ⟨rfl, hevaluated, ?_⟩
  rw [answered, hread _ hwrites rfl, Option.map_some, hagrees, hevaluated]
  rfl

/-- Spellings that evaluation counts as true and a list lacks: SQLite gives a column that holds them
the name of false, and so does H2 to the text that it lacks. -/
theorem answered_capitalized :
    (∀ active ∈ ["TRUE", "True"],
      (written active).value (.encoded .booleanText (.column .new "active")) = some "true" ∧
        answered (.sqlite false) active (.column .new "active") = some (some (.text "false"))) ∧
      (written "True").value (.encoded .booleanText (.text "True")) = some "true" ∧
      answered (.h2 false) "True" (.text "True") = some (some (.text "false")) := by
  decide +kernel

end Members

end ChangeTracking.Sql
