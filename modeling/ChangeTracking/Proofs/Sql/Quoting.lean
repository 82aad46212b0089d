import ChangeTracking.Proofs.Sql.Joins

/-!
# Quoting

A database reads a text in quotes up to the first quote that does not stand twice.  The main
statement is that this undoes quoting, and nothing else: what is read are exactly the written
texts, wherever no further quote follows.  So no text, whatever quotes it has, reaches beyond the
token in which it was written.
-/

namespace ChangeTracking.Sql

/-! ## Reading quotes -/

/-- Read up to the quote that ends the token; a quote that stands twice belongs to the text. -/
def readInside (quote : Char) : List Char → Option (List Char × List Char)
  | [] => none
  | [c] => if c = quote then some ([], []) else none
  | c :: d :: cs =>
      if c = quote then
        if d = quote then (readInside quote cs).map fun read => (quote :: read.1, read.2)
        else some ([], d :: cs)
      else (readInside quote (d :: cs)).map fun read => (c :: read.1, read.2)

/-- Read a text in quotes, and what follows it. -/
def readQuoted (quote : Char) (text : String) : Option (String × String) :=
  match text.toList with
  | [] => none
  | c :: cs =>
      if c = quote then
        (readInside quote cs).map fun read => (String.ofList read.1, String.ofList read.2)
      else none

/-- The characters between the quotes. -/
def insideQuotes (quote : Char) (value : List Char) : List Char :=
  value.flatMap fun c => if c = quote then [quote, quote] else [c]

section Characters

variable {quote c : Char} {value rest cs : List Char}

theorem insideQuotes_cons_self :
    insideQuotes quote (quote :: value) = quote :: quote :: insideQuotes quote value := by
  simp [insideQuotes]

theorem insideQuotes_cons_of_ne (hc : c ≠ quote) :
    insideQuotes quote (c :: value) = c :: insideQuotes quote value := by
  simp [insideQuotes, hc]

theorem readInside_cons_of_ne (hc : c ≠ quote) :
    readInside quote (c :: cs) = (readInside quote cs).map fun read => (c :: read.1, read.2) := by
  cases cs with
  | nil => simp [readInside, hc]
  | cons d cs => rw [readInside, if_neg hc]

/-- What was put between quotes is read up to the last of them, unless one more follows. -/
theorem readInside_insideQuotes (hrest : rest.head? ≠ some quote) :
    readInside quote (insideQuotes quote value ++ quote :: rest) = some (value, rest) := by
  induction value with
  | nil =>
      cases rest with
      | nil => simp [insideQuotes, readInside]
      | cons d rest =>
          have hd : d ≠ quote := fun heq => hrest (congrArg some heq)
          simp [insideQuotes, readInside, hd]
  | cons c value ih =>
      by_cases hc : c = quote
      · rw [hc, insideQuotes_cons_self, List.cons_append, List.cons_append, readInside, if_pos rfl,
          if_pos rfl, ih, Option.map_some]
      · rw [insideQuotes_cons_of_ne hc, List.cons_append, readInside_cons_of_ne hc, ih,
          Option.map_some]

/-- What is read was put between quotes, and no quote follows it. -/
theorem eq_insideQuotes_of_readInside (h : readInside quote cs = some (value, rest)) :
    cs = insideQuotes quote value ++ quote :: rest ∧ rest.head? ≠ some quote := by
  -- Two quotes in a row stand for one in the text; a single one ends it.
  fun_induction readInside quote cs generalizing value with
  | case1 => cases h
  | case2 =>
      cases h
      exact ⟨rfl, by simp⟩
  | case3 c hc => cases h
  | case4 cs ih =>
      obtain ⟨⟨read, rest'⟩, hread, heq⟩ := Option.map_eq_some_iff.mp h
      cases heq
      obtain ⟨rfl, hrest⟩ := ih hread
      exact ⟨by rw [insideQuotes_cons_self]; rfl, hrest⟩
  | case5 d cs hd =>
      cases h
      exact ⟨rfl, fun heq => hd (Option.some.inj heq)⟩
  | case6 c d cs hc ih =>
      obtain ⟨⟨read, rest'⟩, hread, heq⟩ := Option.map_eq_some_iff.mp h
      cases heq
      obtain ⟨heq, hrest⟩ := ih hread
      exact ⟨by rw [insideQuotes_cons_of_ne hc, List.cons_append, heq], hrest⟩

end Characters

section Tokens

variable {quote : Char} {text value rest : String}

theorem toList_doubled :
    (Text.doubled quote value).toList = quote :: (insideQuotes quote value.toList ++ [quote]) := by
  rw [Text.doubled, String.toList_ofList, List.cons_append, insideQuotes]

/-- Exactly the texts that are written in quotes are read, and what follows is left as it is. -/
theorem readQuoted_eq_some_iff : readQuoted quote text = some (value, rest) ↔
    text = Text.doubled quote value ++ rest ∧ rest.toList.head? ≠ some quote := by
  have hwritten : text = Text.doubled quote value ++ rest ↔
      text.toList = quote :: (insideQuotes quote value.toList ++ quote :: rest.toList) := by
    rw [← String.toList_inj, String.toList_append, toList_doubled]
    simp
  rw [hwritten, readQuoted]
  constructor
  · intro h
    split at h
    · cases h
    · rename_i c cs hcs
      split at h
      · rename_i hc
        obtain ⟨⟨read, rest'⟩, hread, heq⟩ := Option.map_eq_some_iff.mp h
        cases heq
        obtain ⟨rfl, hrest⟩ := eq_insideQuotes_of_readInside hread
        rw [hcs, hc, String.toList_ofList, String.toList_ofList]
        exact ⟨rfl, hrest⟩
      · cases h
  · rintro ⟨htext, hrest⟩
    rw [htext]
    simp [readInside_insideQuotes hrest]

theorem readQuoted_doubled (h : rest.toList.head? ≠ some quote) :
    readQuoted quote (Text.doubled quote value ++ rest) = some (value, rest) :=
  readQuoted_eq_some_iff.mpr ⟨rfl, h⟩

/-- Different texts are written differently. -/
theorem doubled_injective (quote : Char) : Function.Injective (Text.doubled quote) := by
  intro value value' h
  have hend : ("" : String).toList.head? ≠ some quote := by simp
  have hread : readQuoted quote (Text.doubled quote value ++ "") = some (value, "") :=
    readQuoted_doubled hend
  rw [h, readQuoted_doubled hend] at hread
  cases hread
  rfl

end Tokens

/-! ## Quotes among other tokens -/

namespace Engine

/-- Behind the quoted token reading goes on as behind complete tokens, unless one more quote
follows. -/
theorem Lexer.flush_run_quote (before : List Token) (quote : Quote) (value : String)
    {rest : List Char} (hrest : rest.head? ≠ some quote.char) :
    (Lexer.run ⟨before, .quote quote value.toList.reverse⟩ rest).bind Lexer.flush =
      (Lexer.run ⟨quote.token value :: before, .ready⟩ rest).bind Lexer.flush := by
  cases rest with
  | nil => exact Lexer.flush_quote before quote value
  | cons c rest =>
      have hc : c ≠ quote.char := fun heq => hrest (congrArg some heq)
      have hstep : Lexer.step ⟨before, .quote quote value.toList.reverse⟩ c =
          Lexer.step ⟨quote.token value :: before, .ready⟩ c := by
        rw [show Lexer.step ⟨before, .quote quote value.toList.reverse⟩ c = _ from if_neg hc,
          Lexer.flush_quote]
        rfl
      rw [Lexer.run_cons, Lexer.run_cons, hstep]

/-- A quoted text is one token, and changes nothing about the tokens behind it. -/
theorem tokens_doubled_append (quote : Quote) (value : String) {rest : String}
    (hrest : rest.toList.head? ≠ some quote.char) :
    tokens (Text.doubled quote.char value ++ rest) =
      (tokens rest).map (quote.token value :: ·) := by
  have hbehind : Lexer.run ⟨[quote.token value], .ready⟩ rest.toList = _ :=
    Lexer.run_behind [quote.token value] ⟨[], .ready⟩ rest.toList
  rw [tokens, String.toList_append, Lexer.run_append, Lexer.run_doubled, Option.bind_some,
    Lexer.flush_run_quote [] quote value hrest, hbehind, tokens]
  cases Lexer.run ⟨[], .ready⟩ rest.toList with
  | none => rfl
  | some s =>
      rw [Option.map_some, Option.bind_some, Option.bind_some, Lexer.flush_behind]
      cases s.flush <;> simp

end Engine

/-! ## Quotes among values -/

/-- The values in front of another one, each with the comma that ends it. -/
def textBefore (values : List Fragment) : String :=
  String.join (values.map fun f => f.sent ++ ", ")

/-- The values behind another one, each with the comma in front of it. -/
def textBehind (values : List Fragment) : String :=
  String.join (values.map fun f => ", " ++ f.sent)

theorem sent_join_append_cons (front back : List Fragment) (f : Fragment) :
    (Fragment.join ", " (front ++ f :: back)).sent =
      textBefore front ++ (f.sent ++ textBehind back) := by
  induction front with
  | nil =>
      rw [List.nil_append, Fragment.sent_join, List.map_cons, Term.intercalate_cons, List.map_map]
      simp [textBefore, textBehind, Function.comp_def]
  | cons first front ih =>
      obtain ⟨g, rest, hrest⟩ := List.exists_cons_of_ne_nil
        (List.append_ne_nil_of_right_ne_nil front (List.cons_ne_nil f back))
      rw [hrest] at ih
      rw [List.cons_append, hrest, Fragment.join, Fragment.sent_append, Fragment.sent_append,
        Fragment.sent_ofText, ih, textBefore, textBefore, List.map_cons, String.join_cons]
      simp only [String.append_assoc]

/-- Behind a value there is a comma, or what follows the list. -/
theorem head?_textBehind_append {quote : Char} (hquote : quote ≠ ',') (back : List Fragment)
    {after : String} (hafter : after.toList.head? ≠ some quote) :
    (textBehind back ++ after).toList.head? ≠ some quote := by
  cases back with
  | nil => simpa [textBehind] using hafter
  | cons f back => simpa [textBehind] using Ne.symm hquote

/-- Quoting with this quote loses nothing and delimits itself: exactly what was written is read, up
to its last quote, with the text that it stands for and with all that follows it, unless one more
quote follows; so different texts are written differently.  Among other tokens the written text is
a single one. -/
structure IsLossless (quote : Engine.Quote) (write : String → String) : Prop where
  read : ∀ text value rest, readQuoted quote.char text = some (value, rest) ↔
    text = write value ++ rest ∧ rest.toList.head? ≠ some quote.char
  injective : Function.Injective write
  token : ∀ value rest, rest.toList.head? ≠ some quote.char →
    Engine.tokens (write value ++ rest) = (Engine.tokens rest).map (quote.token value :: ·)

theorem isLossless_doubled (quote : Engine.Quote) : IsLossless quote (Text.doubled quote.char) where
  read _ _ _ := readQuoted_eq_some_iff
  injective := doubled_injective quote.char
  token value _ hrest := Engine.tokens_doubled_append quote value hrest

/-- Literals and quoted names lose nothing and delimit themselves.  In every list of values that a
statement writes, what is read behind the values in front of a literal is its text, and the values
behind it are left. -/
theorem quoting_isLossless :
    IsLossless .text Text.sqlLiteral ∧ IsLossless .name Text.sqlIdentifier ∧
      ∀ (front back : List Fragment) (value after : String), after.toList.head? ≠ some '\'' →
        ∃ literal, (Fragment.join ", " (front ++ .ofText (Text.sqlLiteral value) :: back)).sent
            ++ after = textBefore front ++ literal ∧
          readQuoted '\'' literal = some (value, textBehind back ++ after) := by
  refine ⟨isLossless_doubled .text, isLossless_doubled .name, ?_⟩
  intro front back value after hafter
  have hrest := head?_textBehind_append (by decide) back hafter
  refine ⟨Text.sqlLiteral value ++ (textBehind back ++ after), ?_, readQuoted_doubled hrest⟩
  rw [sent_join_append_cons, Fragment.sent_ofText]
  simp only [String.append_assoc]

/-- A declared type cannot end its literal and close the list of values. -/
theorem quoting_isLossless_breakout :
    (", 'create')" : String).toList.head? ≠ some '\'' ∧
      readQuoted '\'' (Text.sqlLiteral "x'); --" ++ ", 'create')") =
        some ("x'); --", ", 'create')") ∧
      Engine.tokens (Text.sqlIdentifier "a\"" ++ " = 1") =
        (Engine.tokens " = 1").map (Engine.Quote.name.token "a\"" :: ·) ∧
      ∃ literal, (Fragment.join ", " [.ofText "?", .ofText (Text.sqlLiteral "x'); --"),
          .ofText (Text.sqlLiteral "create")]).sent ++ ")" =
            textBefore [.ofText "?"] ++ literal ∧
          readQuoted '\'' literal =
            some ("x'); --", textBehind [.ofText (Text.sqlLiteral "create")] ++ ")") := by
  obtain ⟨hliteral, hname, hvalues⟩ := quoting_isLossless
  have hcomma : (", 'create')" : String).toList.head? ≠ some '\'' := by decide
  exact ⟨hcomma, (hliteral.read _ _ _).mpr ⟨rfl, hcomma⟩, hname.token _ _ (by decide),
    hvalues [.ofText "?"] [.ofText (Text.sqlLiteral "create")] "x'); --" ")" (by decide)⟩

end ChangeTracking.Sql
