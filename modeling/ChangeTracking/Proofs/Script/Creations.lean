import ChangeTracking.Proofs.Script.TriggerNames
import Mathlib.Data.List.TakeWhile

/-!
# What artifacts create

The text of an artifact begins with the name of what it creates, a trigger or, in PostgreSQL,
a function; there the trigger stands in the last line.  Read back, the names are those of the
artifact, of its table and of its function, in whatever way the backend spells them.
-/

namespace ChangeTracking

/-! ## Names in statements -/

namespace Sql

/-- Read up to the quote that ends a name; a quote that is written twice belongs to the name. -/
def untilQuote : List Char → Option (List Char × List Char)
  | [] => none
  | c :: cs =>
      if c = '"' then
        match cs with
        | [] => some ([], [])
        | d :: rest =>
            if d = '"' then (untilQuote rest).map fun read => ('"' :: read.1, read.2)
            else some ([], d :: rest)
      else (untilQuote cs).map fun read => (c :: read.1, read.2)

/-- Read a name, in quotes or bare, and what follows it. -/
def readName : List Char → Option (String × List Char)
  | [] => none
  | c :: cs =>
      if c = '"' then (untilQuote cs).map fun read => (String.ofList read.1, read.2)
      else if Naming.isInner c then
        some (String.ofList ((c :: cs).takeWhile Naming.isInner),
          (c :: cs).dropWhile Naming.isInner)
      else none

theorem untilQuote_doubled (cs : List Char) {rest : List Char} (hrest : rest.head? ≠ some '"') :
    untilQuote (cs.flatMap (fun c => if c = '"' then ['"', '"'] else [c]) ++ '"' :: rest) =
      some (cs, rest) := by
  induction cs with
  | nil =>
      cases rest with
      | nil => rfl
      | cons d rest =>
          have hd : d ≠ '"' := fun heq => hrest (congrArg some heq)
          simp [untilQuote, hd]
  | cons c cs ih =>
      by_cases hc : c = '"'
      · simp [untilQuote, hc, ih]
      · rw [List.flatMap_cons, if_neg hc, List.singleton_append, List.cons_append,
          untilQuote.eq_def]
        dsimp only
        rw [if_neg hc, ih]
        rfl

theorem readName_quoted (name : String) {rest : List Char} (hrest : rest.head? ≠ some '"') :
    readName ((Text.sqlIdentifier name).toList ++ rest) = some (name, rest) := by
  rw [Text.sqlIdentifier, Text.doubled, String.toList_ofList, List.cons_append, List.cons_append,
    List.append_assoc, readName, if_pos rfl, List.singleton_append, untilQuote_doubled _ hrest,
    Option.map_some, String.ofList_toList]

theorem readName_alone (name : String) :
    readName (Text.sqlIdentifier name).toList = some (name, []) := by
  rw [← List.append_nil (Text.sqlIdentifier name).toList]
  exact readName_quoted name (by simp)

theorem readName_bare {name : String} (hne : name.toList ≠ [])
    (hname : ∀ c ∈ name.toList, Naming.isInner c = true) {rest : List Char}
    (hrest : ∀ c ∈ rest.head?, Naming.isInner c = false) :
    readName (name.toList ++ rest) = some (name, rest) := by
  -- Reading goes as far as the characters of names do, so it stops at the end of this one.
  have htake : (name.toList ++ rest).takeWhile Naming.isInner = name.toList := by
    rw [List.takeWhile_append_of_pos hname]
    cases rest with
    | nil => simp
    | cons d rest => simp [hrest d rfl]
  have hdrop : (name.toList ++ rest).dropWhile Naming.isInner = rest := by
    rw [List.dropWhile_append_of_pos hname]
    cases rest with
    | nil => rfl
    | cons d rest => simp [hrest d rfl]
  cases hcs : name.toList with
  | nil => exact absurd hcs hne
  | cons c cs =>
      rw [hcs, List.cons_append] at htake hdrop
      have hc : Naming.isInner c = true := hname c (hcs ▸ List.mem_cons_self)
      have hquote : c ≠ '"' := by
        rintro rfl
        cases hc
      rw [List.cons_append, readName, if_neg hquote, if_pos hc, htake, hdrop, ← hcs,
        String.ofList_toList]

example : readName "\"a\"\"b\" ON".toList = some ("a\"b", " ON".toList) := by
  decide +kernel

end Sql

theorem Text.charsAfter?_append (start rest : List Char) :
    Text.charsAfter? start (start ++ rest) = some rest :=
  (Text.charsAfter?_eq_some_iff _ _ _).mpr rfl

namespace Script

open Naming (IsName isInner)
open Plan (Operation TriggerSet planAll)
open Schema (Model)
open Sql (Dialect readName)
open Text (IsAscii charsAfter? charsAfter?_append)
open Tracking (Analysis analyze)

/-! ## Statements that create -/

/-- What an artifact creates. -/
structure Creation where
  trigger : String
  /-- The table that the trigger is on. -/
  table : String
  /-- The function that the trigger calls, where it has one of its own. -/
  function : Option String
  deriving DecidableEq, Repr

/-- Skip the events of a trigger and the word behind them. -/
def behindOn : List Char → Option (List Char)
  | [] => none
  | c :: cs =>
      if c = ' ' ∨ c = '\n' then (charsAfter? ['O', 'N', ' '] cs).or (behindOn cs)
      else behindOn cs

/-- Read the names of a trigger and of its table behind the words that create a trigger. -/
def readTrigger (opening : String) (cs : List Char) : Option (String × String) := do
  let (trigger, cs) ← readName (← charsAfter? opening.toList cs)
  let (table, _) ← readName (← behindOn (← charsAfter? " AFTER ".toList cs))
  return (trigger, table)

/-- Read the name of a function without arguments. -/
def readFunction (cs : List Char) : Option String := do
  let (function, cs) ← readName (← charsAfter? "CREATE OR REPLACE FUNCTION ".toList cs)
  let _ ← charsAfter? "()".toList cs
  return function

def lastLine (cs : List Char) : List Char := (cs.reverse.takeWhile (· != '\n')).reverse

/-- What the text of an artifact creates. -/
def creation? (backend : Backend) (source : String) : Option Creation :=
  match backend with
  | .sqlite | .h2 =>
      (readTrigger "CREATE TRIGGER " source.toList).map fun read => ⟨read.1, read.2, none⟩
  | .hana => (readTrigger "TRIGGER " source.toList).map fun read => ⟨read.1, read.2, none⟩
  | .postgres => do
      let function ← readFunction source.toList
      let (trigger, table) ← readTrigger "CREATE TRIGGER " (lastLine source.toList)
      return ⟨trigger, table, some function⟩

/-! ## Reading them -/

theorem behindOn_append {word : List Char} (h : ∀ c ∈ word, ¬ (c = ' ' ∨ c = '\n'))
    (rest : List Char) : behindOn (word ++ rest) = behindOn rest := by
  induction word with
  | nil => rfl
  | cons c word ih =>
      obtain ⟨hc, hword⟩ := List.forall_mem_cons.mp h
      rw [List.cons_append, behindOn, if_neg hc, ih hword]

theorem event_chars (op : Operation) : (∀ c ∈ op.event.toList, ¬ (c = ' ' ∨ c = '\n')) ∧
    ∀ rest, charsAfter? ['O', 'N', ' '] (op.event.toList ++ rest) = none := by
  cases op with
  | create => exact ⟨by simp [Operation.event], fun _ => rfl⟩
  | update => exact ⟨by simp [Operation.event], fun _ => rfl⟩
  | delete => exact ⟨by simp [Operation.event], fun _ => rfl⟩

/-- The events are skipped. -/
theorem behindOn_events (ops : List Operation) (rest : List Char) :
    behindOn ((" OR ".intercalate (ops.map Operation.event)).toList ++ rest) = behindOn rest := by
  induction ops with
  | nil => rfl
  | cons op ops ih =>
      cases ops with
      | nil =>
          rw [List.map_singleton, String.intercalate_singleton, behindOn_append (event_chars op).1]
      | cons next ops =>
          have hnext : charsAfter? ['O', 'N', ' ']
              ((" OR ".intercalate ((next :: ops).map Operation.event)).toList ++ rest) = none := by
            cases ops with
            | nil => exact (event_chars next).2 rest
            | cons _ _ =>
                rw [List.map_cons, List.map_cons, String.intercalate_cons_cons,
                  String.toList_append, String.toList_append, List.append_assoc, List.append_assoc]
                exact (event_chars next).2 _
          rw [List.map_cons, List.map_cons, String.intercalate_cons_cons, ← List.map_cons,
            String.toList_append, String.toList_append, List.append_assoc, List.append_assoc,
            behindOn_append (event_chars op).1, ← ih]
          -- Behind the second blank stands an event, not the word that is looked for.
          exact (congrArg (Option.or · _) hnext).trans Option.none_or

/-- A head is read back, however the name of the trigger is spelled. -/
theorem readTrigger_head (opening : String) {spelling : List Char} {trigger : String}
    (hspelling : ∀ rest, readName (spelling ++ ' ' :: rest) = some (trigger, ' ' :: rest))
    (ops : List Operation) {on : String} {blank : Char} (hblank : blank = ' ' ∨ blank = '\n')
    (hon : on.toList = blank :: ['O', 'N', ' ']) (table : String) {rest : List Char}
    (hrest : rest.head? ≠ some '"') :
    readTrigger opening (opening.toList ++ (spelling ++ (" AFTER ".toList ++
      ((" OR ".intercalate (ops.map Operation.event)).toList ++ (on.toList ++
        ((Text.sqlIdentifier table).toList ++ rest)))))) = some (trigger, table) := by
  have hbehind : behindOn (on.toList ++ ((Text.sqlIdentifier table).toList ++ rest)) =
      some ((Text.sqlIdentifier table).toList ++ rest) := by
    rw [hon, List.cons_append, behindOn, if_pos hblank, charsAfter?_append]
    rfl
  -- The blank that ends the name of the trigger is the one in front of the next word.
  have hafter : " AFTER ".toList = ' ' :: ['A', 'F', 'T', 'E', 'R', ' '] := rfl
  have hname := hspelling (['A', 'F', 'T', 'E', 'R', ' '] ++
    ((" OR ".intercalate (ops.map Operation.event)).toList ++ (on.toList ++
      ((Text.sqlIdentifier table).toList ++ rest))))
  rw [← List.cons_append, ← hafter] at hname
  simp only [readTrigger, charsAfter?_append, Option.bind_eq_bind, Option.bind_some, hname,
    behindOn_events, hbehind, Sql.readName_quoted table hrest]
  rfl

theorem lastLine_append (front : List Char) {line : List Char} (h : '\n' ∉ line) :
    lastLine (front ++ '\n' :: line) = line := by
  have hline : ∀ c ∈ line.reverse, (c != '\n') = true := by
    intro c hc
    rw [bne_iff_ne]
    rintro rfl
    exact h (List.mem_reverse.mp hc)
  rw [lastLine, List.reverse_append, List.reverse_cons, List.append_assoc,
    List.takeWhile_append_of_pos hline]
  simp

/-! ## Artifacts -/

theorem isInner_letterCase (backend : Backend) {c : Char} (h : isInner c = true) :
    isInner (Dialect.letterCase backend c) = true := by
  have hascii : c.toNat < 128 :=
    Naming.lt_of_isNameChar (by rw [Naming.isNameChar, h, Bool.true_or])
  refine Text.forall_ascii (p := fun c => isInner c = true →
    isInner (Dialect.letterCase backend c) = true) ?_ hascii h
  cases backend <;> decide +kernel

/-- Without its dots a name has the characters of identifiers alone. -/
theorem isInner_replaceChar {name : String} (h : IsName name) :
    ∀ c ∈ (Text.replaceChar '.' "_" name).toList, isInner c = true := by
  intro c hc
  rw [Text.replaceChar, Text.toList_expand, List.mem_flatMap] at hc
  obtain ⟨d, hd, hc⟩ := hc
  split at hc
  · rw [List.mem_singleton.mp hc]
    rfl
  · rename_i hdot
    rw [List.mem_singleton.mp hc]
    have hchar := h.chars d hd
    rwa [Naming.isNameChar, beq_eq_false_iff_ne.mpr hdot, Bool.or_false] at hchar

theorem isInner_fold {g : Generator} {name : String} (h : ∀ c ∈ name.toList, isInner c = true) :
    ∀ c ∈ (g.dialect.fold name).toList, isInner c = true := by
  have hascii : IsAscii name := fun c hc =>
    Naming.lt_of_isNameChar (by rw [Naming.isNameChar, h c hc, Bool.true_or])
  rw [Generator.dialect, Dialect.toList_fold _ _ hascii]
  intro c hc
  obtain ⟨c', hc', rfl⟩ := List.mem_map.mp hc
  exact isInner_letterCase _ (h c' hc')

/-- The stems of planned sets can be written without quotes. -/
theorem isInner_stem {m : Model} {settings settings' : Settings} {name : String} {a : Analysis}
    (h : analyze m name settings = .ok a) {sets : List TriggerSet}
    (hplan : planAll m a.descriptor settings' = .ok sets) {set : TriggerSet} (hset : set ∈ sets) :
    ∀ c ∈ set.stem.toList, isInner c = true := by
  have htable := isInner_replaceChar (isName_of_ownsTable (isPlaced_of_planAll h hplan hset).table)
  have hpart : ∀ c ∈ (compositionPart set).toList, isInner c = true := by
    unfold compositionPart
    split
    · rename_i collection hcollection
      obtain ⟨_, db, element, hdb, helement, rfl⟩ := collection_of_planAll h hplan hset hcollection
      have hshape := Schema.Model.hasIdentifierShape_element hdb helement
      rw [String.toList_append, List.forall_mem_append]
      refine ⟨List.all_eq_true.mp (by decide), ?_⟩
      revert hshape
      cases element.name.toList with
      | nil => exact fun _ => List.forall_mem_nil _
      | cons c cs =>
          intro hshape
          obtain ⟨hc, hcs⟩ := Bool.and_eq_true_iff.mp hshape
          exact List.forall_mem_cons.mpr
            ⟨Naming.isInner_of_isInitial hc, List.all_eq_true.mp hcs⟩
    · exact List.forall_mem_nil _
  rw [stem_eq, String.toList_append, String.toList_append, List.forall_mem_append,
    List.forall_mem_append]
  exact ⟨⟨htable, List.all_eq_true.mp (by decide)⟩, hpart⟩

section Artifacts

variable {g : Generator} {d : Dialect} {set : TriggerSet}

theorem isInner_operationName (h : ∀ c ∈ set.stem.toList, isInner c = true) (op : Operation) :
    ∀ c ∈ (operationName g.dialect set op).toList, isInner c = true := by
  have hsuffix : ∀ c ∈ op.suffix.toList, isInner c = true := by
    cases op <;> exact List.all_eq_true.mp (by decide)
  refine isInner_fold ?_
  rw [String.toList_append, String.toList_append, List.forall_mem_append, List.forall_mem_append]
  exact ⟨⟨h, List.all_eq_true.mp (by decide)⟩, hsuffix⟩

theorem lineFeed_notMem_catalogTable (g : Generator) {name : String} (h : IsName name) :
    '\n' ∉ (g.dialect.catalogTable name).toList := by
  unfold Dialect.catalogTable
  split
  · intro hmem
    cases h.chars _ hmem
  · intro hmem
    cases isInner_fold (isInner_replaceChar h) _ hmem

/-- The head of the trigger of one operation is read back. -/
theorem readTrigger_single (opening : String) {spelling : List Char} {trigger : String}
    (hspelling : ∀ rest, readName (spelling ++ ' ' :: rest) = some (trigger, ' ' :: rest))
    (op : Operation) {on : String} {blank : Char} (hblank : blank = ' ' ∨ blank = '\n')
    (hon : on.toList = blank :: ['O', 'N', ' ']) (table : String) {rest : List Char}
    (hrest : rest.head? ≠ some '"') :
    readTrigger opening (opening.toList ++ (spelling ++ (" AFTER ".toList ++ (op.event.toList ++
      (on.toList ++ ((Text.sqlIdentifier table).toList ++ rest)))))) = some (trigger, table) := by
  have hhead := readTrigger_head opening hspelling [op] hblank hon table hrest
  rwa [List.map_singleton, String.intercalate_singleton] at hhead

theorem readName_sqlIdentifier (name : String) (rest : List Char) :
    readName ((Text.sqlIdentifier name).toList ++ ' ' :: rest) = some (name, ' ' :: rest) :=
  Sql.readName_quoted name (by simp)

theorem creation_h2 (op : Operation) : creation? .h2 (H2.trigger d set op).source =
    some ⟨operationName d set op, d.catalogTable set.entity, none⟩ := by
  unfold creation? H2.trigger Dialect.tableName
  simp only [String.toList_append, List.append_assoc]
  rw [readTrigger_single "CREATE TRIGGER " (readName_sqlIdentifier _) op (.inl rfl) rfl]
  · rfl
  · simp

theorem creation_hana (op : Operation) : creation? .hana (Hana.trigger d set op).source =
    some ⟨operationName d set op, d.catalogTable set.entity, none⟩ := by
  unfold creation? Hana.trigger Dialect.tableName
  simp only [String.toList_append, List.append_assoc]
  rw [readTrigger_single "TRIGGER " (readName_sqlIdentifier _) op (.inr rfl) rfl]
  · rfl
  · simp

/-- Without quotes, the name of a trigger must have the characters of identifiers alone. -/
theorem creation_sqlite {op : Operation}
    (hname : ∀ c ∈ (operationName d set op).toList, isInner c = true)
    (hne : (operationName d set op).toList ≠ []) :
    creation? .sqlite (Sqlite.trigger d set op).source =
      some ⟨operationName d set op, d.catalogTable set.entity, none⟩ := by
  have hspelling : ∀ rest, readName ((operationName d set op).toList ++ ' ' :: rest) =
      some (operationName d set op, ' ' :: rest) := fun rest =>
    Sql.readName_bare hne hname (by simp [isInner])
  unfold creation? Sqlite.trigger Dialect.tableName
  simp only [String.toList_append, List.append_assoc]
  rw [readTrigger_single "CREATE TRIGGER " hspelling op (.inr rfl) rfl]
  · rfl
  · simp

theorem forall_mem_sqlIdentifier {p : Char → Prop} {name : String} (hquote : p '"')
    (h : ∀ c ∈ name.toList, p c) : ∀ c ∈ (Text.sqlIdentifier name).toList, p c := by
  rw [Text.sqlIdentifier, Text.doubled, String.toList_ofList, List.forall_mem_append,
    List.forall_mem_cons, List.forall_mem_singleton]
  refine ⟨⟨hquote, fun c hc => ?_⟩, hquote⟩
  obtain ⟨d, hd, hc⟩ := List.mem_flatMap.mp hc
  split at hc
  · rename_i hd
    simp only [List.mem_cons, List.not_mem_nil, or_false, or_self] at hc
    rwa [hc]
  · rw [List.mem_singleton.mp hc]
    exact h d hd

theorem lineFeed_notMem_sqlIdentifier {name : String} (h : '\n' ∉ name.toList) :
    '\n' ∉ (Text.sqlIdentifier name).toList := by
  have hchars := forall_mem_sqlIdentifier (p := (· ≠ '\n')) (by decide)
    fun c (hc : c ∈ name.toList) heq => h (heq ▸ hc)
  exact fun hmem => hchars _ hmem rfl

theorem lineFeed_notMem_events (ops : List Operation) :
    '\n' ∉ (" OR ".intercalate (ops.map Operation.event)).toList := by
  rw [String.toList_intercalate]
  refine fun hmem => forall_mem_intercalate (p := (· ≠ '\n')) (by simp) ?_ _ hmem rfl
  intro event hevent
  obtain ⟨text, htext, rfl⟩ := List.mem_map.mp hevent
  obtain ⟨op, -, rfl⟩ := List.mem_map.mp htext
  cases op <;> simp [Operation.event]

/-- A pair creates the trigger and the function of its stem. -/
theorem creation_pair (ops : List Operation) {stem : String} (hstem : '\n' ∉ stem.toList)
    (htable : '\n' ∉ (d.catalogTable set.entity).toList) :
    creation? .postgres (Postgres.pair d set ops stem).source =
      some ⟨stem ++ "_trigger", d.catalogTable set.entity, some (stem ++ "_func")⟩ := by
  have hfunction : readFunction (Postgres.pair d set ops stem).source.toList =
      some (stem ++ "_func") := by
    have hopening : "() RETURNS TRIGGER AS $$\nDECLARE\n".toList =
        "()".toList ++ " RETURNS TRIGGER AS $$\nDECLARE\n".toList := by
      decide +kernel
    unfold Postgres.pair Postgres.function
    simp only [String.toList_append, List.append_assoc, hopening]
    rw [readFunction]
    simp only [charsAfter?_append, Option.bind_eq_bind, Option.bind_some]
    rw [Sql.readName_quoted _ (by simp)]
    simp only [Option.bind_some, charsAfter?_append]
    rfl
  have htrigger : readTrigger "CREATE TRIGGER "
      (lastLine (Postgres.pair d set ops stem).source.toList) =
        some (stem ++ "_trigger", d.catalogTable set.entity) := by
    -- Nothing behind the last line feed, names included, may bring another one.
    have hbreak : "\n\nCREATE TRIGGER ".toList = ['\n'] ++ '\n' :: "CREATE TRIGGER ".toList := rfl
    unfold Postgres.pair Dialect.tableName
    simp only [String.toList_append, List.append_assoc, hbreak]
    rw [← List.append_assoc, List.cons_append, lastLine_append,
      readTrigger_head "CREATE TRIGGER " (readName_sqlIdentifier _) ops (.inl rfl) rfl]
    · simp
    · have hending (ending : String) (hending : '\n' ∉ ending.toList) :
          '\n' ∉ (stem ++ ending).toList := by
        rw [String.toList_append, List.mem_append, not_or]
        exact ⟨hstem, hending⟩
      have hname := lineFeed_notMem_sqlIdentifier (hending "_trigger" (by decide))
      have hfunction := lineFeed_notMem_sqlIdentifier (hending "_func" (by decide))
      simp only [List.mem_append, not_or]
      exact ⟨by decide, hname, by decide, lineFeed_notMem_events ops, by decide,
        lineFeed_notMem_sqlIdentifier htable, by decide +kernel, hfunction, by decide⟩
  rw [creation?, hfunction, htrigger]
  rfl

/-- What the artifact of a set with this name creates. -/
def Generator.creation (g : Generator) (set : TriggerSet) (name : String) : Creation where
  trigger := name
  table := g.dialect.catalogTable set.entity
  function :=
    match g.backend with
    | .postgres => some (g.dialect.fold set.stem ++ "_func")
    | _ => none

/-- The artifacts of a set create the triggers that they are called after, on its table. -/
theorem creation_of_mem_artifacts (hascii : IsAscii set.stem)
    (hstem : ∀ c ∈ set.stem.toList, isInner c = true) (hentity : IsName set.entity)
    {artifact : Artifact} (h : artifact ∈ g.artifacts set) :
    creation? g.backend artifact.source = some (g.creation set artifact.name) := by
  obtain ⟨backend, quoted⟩ := g
  -- SQLite writes the name without quotes, and PostgreSQL is read by lines: there the characters
  -- of the names matter.
  cases backend with
  | sqlite =>
      obtain ⟨op, -, rfl⟩ := List.mem_map.mp h
      refine creation_sqlite (isInner_operationName (g := ⟨.sqlite, quoted⟩) hstem op) ?_
      rw [operationName_eq hascii, String.toList_append, toList_fold_suffix]
      cases op <;> simp
  | hana =>
      obtain ⟨op, -, rfl⟩ := List.mem_map.mp h
      exact creation_hana op
  | h2 =>
      obtain ⟨op, -, rfl⟩ := List.mem_map.mp h
      exact creation_h2 op
  | postgres =>
      rw [Generator.artifacts] at h
      dsimp only at h
      unfold Postgres.combined at h
      split at h
      · cases h
      · rw [List.mem_singleton.mp h]
        refine creation_pair set.operations ?_
          (lineFeed_notMem_catalogTable ⟨.postgres, quoted⟩ hentity)
        intro hmem
        cases isInner_fold (g := ⟨.postgres, quoted⟩) hstem _ hmem

end Artifacts

end Script

end ChangeTracking
