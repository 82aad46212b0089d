import ChangeTracking.Text.Chars

/-!
# Tokens of SQL

The lexical side of the part of SQL in which triggers compute: keywords and bare names,
which match in any letter case, quoted names, texts, numbers and operators.  The lexer is
an automaton that takes one character after another, so what it makes of a text is known
from what it makes of the parts.
-/

namespace ChangeTracking.Sql.Engine

/-- A token. -/
inductive Token
  | opening
  | closing
  | comma
  | dot
  | bars
  | equals
  | differs
  | exceeds
  /-- A keyword or a bare name, in upper case. -/
  | word (name : String)
  /-- A name in double quotes. -/
  | name (name : String)
  /-- A text in single quotes. -/
  | text (value : String)
  | number (value : Nat)
  deriving DecidableEq, Repr

/-- What stands between quotes. -/
inductive Quote
  | name
  | text

def Quote.char : Quote → Char
  | name => '"'
  | text => '\''

/-- The token that stands between quotes. -/
def Quote.token : Quote → String → Token
  | name => .name
  | text => .text

/-- What the lexer is in the middle of.  Characters are kept newest first. -/
inductive Mode
  | ready
  | word (letters : List Char)
  | digits (value : Nat)
  | quoted (quote : Quote) (inside : List Char)
  /-- After a quote that either ends the token or is the first of two. -/
  | quote (quote : Quote) (inside : List Char)
  | less
  | bar

/-- The state of the lexer: the tokens that are complete, newest first, and its mode. -/
structure Lexer where
  tokens : List Token
  mode : Mode

/-- Letters of bare names. -/
def isLetter (c : Char) : Bool := c.isAlpha || c == '_'

def symbol? : Char → Option Token
  | '(' => some .opening
  | ')' => some .closing
  | ',' => some .comma
  | '.' => some .dot
  | '=' => some .equals
  | '>' => some .exceeds
  | _ => none

namespace Lexer

/-- The tokens once the token at hand is complete. -/
def flush (s : Lexer) : Option (List Token) :=
  match s.mode with
  | .ready => some s.tokens
  | .word letters => some (.word (String.ofList (letters.reverse.map Char.toUpper)) :: s.tokens)
  | .digits value => some (.number value :: s.tokens)
  | .quote quote inside => some (quote.token (String.ofList inside.reverse) :: s.tokens)
  | .quoted .. | .less | .bar => none

/-- The state after the first character behind complete tokens. -/
def start (tokens : List Token) (c : Char) : Option Lexer :=
  if c = ' ' then some ⟨tokens, .ready⟩
  else if c = '"' then some ⟨tokens, .quoted .name []⟩
  else if c = '\'' then some ⟨tokens, .quoted .text []⟩
  else if c = '<' then some ⟨tokens, .less⟩
  else if c = '|' then some ⟨tokens, .bar⟩
  else if c.isDigit then some ⟨tokens, .digits (c.toNat - '0'.toNat)⟩
  else if isLetter c then some ⟨tokens, .word [c]⟩
  else (symbol? c).map fun token => ⟨token :: tokens, .ready⟩

/-- The state after one more character. -/
def step (s : Lexer) (c : Char) : Option Lexer :=
  match s.mode with
  | .ready => start s.tokens c
  | .word letters =>
      if isLetter c || c.isDigit then some ⟨s.tokens, .word (c :: letters)⟩
      else s.flush.bind (start · c)
  | .digits value =>
      if c.isDigit then some ⟨s.tokens, .digits (10 * value + (c.toNat - '0'.toNat))⟩
      else if isLetter c then none
      else s.flush.bind (start · c)
  | .quoted quote inside =>
      if c = quote.char then some ⟨s.tokens, .quote quote inside⟩
      else some ⟨s.tokens, .quoted quote (c :: inside)⟩
  | .quote quote inside =>
      if c = quote.char then some ⟨s.tokens, .quoted quote (c :: inside)⟩
      else s.flush.bind (start · c)
  | .less => if c = '>' then some ⟨.differs :: s.tokens, .ready⟩ else none
  | .bar => if c = '|' then some ⟨.bars :: s.tokens, .ready⟩ else none

/-- The state after some more characters. -/
def run (s : Lexer) (cs : List Char) : Option Lexer := cs.foldlM step s

end Lexer

def tokens (sql : String) : Option (List Token) :=
  ((Lexer.run ⟨[], .ready⟩ sql.toList).bind Lexer.flush).map List.reverse

/-! ## Texts and their tokens -/

/-- Wherever the characters stand, they are these tokens. -/
def Opens (cs : List Char) (ts : List Token) : Prop :=
  ∀ before, Lexer.run ⟨before, .ready⟩ cs = some ⟨ts.reverse ++ before, .ready⟩

/-- Before a delimiter, or at the end, the characters are these tokens. -/
def Reads (cs : List Char) (ts : List Token) : Prop :=
  ∀ before, ∃ s, Lexer.run ⟨before, .ready⟩ cs = some s ∧ s.flush = some (ts.reverse ++ before)

/-- The character ends every token but a quoted one. -/
def delimits (c : Char) : Bool := c == ' ' || c == ')' || c == ','

theorem Lexer.run_append (s : Lexer) (cs cs' : List Char) :
    s.run (cs ++ cs') = (s.run cs).bind (run · cs') :=
  List.foldlM_append

theorem Lexer.run_cons (s : Lexer) (c : Char) (cs : List Char) :
    s.run (c :: cs) = (s.step c).bind (run · cs) :=
  List.foldlM_cons

/-- A delimiter is read as if the token before it were complete. -/
theorem Lexer.step_of_flush {s : Lexer} {ts : List Token} {c : Char} (h : s.flush = some ts)
    (hc : delimits c = true) : s.step c = start ts c := by
  have hplain : isLetter c = false ∧ c.isDigit = false ∧ ∀ quote : Quote, c ≠ quote.char := by
    simp only [delimits, Bool.or_eq_true, beq_iff_eq] at hc
    rcases hc with (rfl | rfl) | rfl <;>
      exact ⟨by decide, by decide, fun quote => by cases quote <;> decide⟩
  obtain ⟨hletter, hdigit, hquote⟩ := hplain
  obtain ⟨before, mode⟩ := s
  cases mode with
  | ready =>
      cases h
      rfl
  | word letters => simp [step, hletter, hdigit, h]
  | digits value => simp [step, hletter, hdigit, h]
  | quoted quote inside => cases h
  | quote quote inside => simp [step, hquote, h]
  | less => cases h
  | bar => cases h

theorem Opens.reads {cs : List Char} {ts : List Token} (h : Opens cs ts) : Reads cs ts :=
  fun before => ⟨_, h before, rfl⟩

theorem Opens.append_reads {cs cs' : List Char} {ts ts' : List Token} (h : Opens cs ts)
    (h' : Reads cs' ts') : Reads (cs ++ cs') (ts ++ ts') := by
  intro before
  rw [Lexer.run_append, h before, Option.bind_some, List.reverse_append, List.append_assoc]
  exact h' (ts.reverse ++ before)

/-- The characters start with a delimiter. -/
def startsDelimited (cs : List Char) : Bool := cs.head?.any delimits

theorem startsDelimited_append {cs : List Char} (h : startsDelimited cs = true)
    (cs' : List Char) : startsDelimited (cs ++ cs') = true := by
  cases cs with
  | nil => cases h
  | cons c cs => exact h

/-- Where a delimiter follows, reading goes on as if the tokens before it were complete. -/
theorem Reads.run_delimited {cs cs' : List Char} {ts : List Token} (h : Reads cs ts)
    (hcs' : startsDelimited cs' = true) (before : List Token) :
    Lexer.run ⟨before, .ready⟩ (cs ++ cs') = Lexer.run ⟨ts.reverse ++ before, .ready⟩ cs' := by
  obtain ⟨s, hrun, hflush⟩ := h before
  cases cs' with
  | nil => cases hcs'
  | cons c cs' =>
      have hc : delimits c = true := hcs'
      -- The delimiter completes the token at hand and is then read as after complete tokens.
      rw [Lexer.run_append, hrun, Option.bind_some, Lexer.run_cons, Lexer.run_cons,
        Lexer.step_of_flush hflush hc, Lexer.step_of_flush rfl hc]

theorem Reads.append_opens {cs cs' : List Char} {ts ts' : List Token} (h : Reads cs ts)
    (h' : Opens cs' ts') (hcs' : startsDelimited cs' = true) :
    Opens (cs ++ cs') (ts ++ ts') := by
  intro before
  rw [h.run_delimited hcs', h', List.reverse_append, List.append_assoc]

theorem Reads.append {cs cs' : List Char} {ts ts' : List Token} (h : Reads cs ts)
    (h' : Reads cs' ts') (hcs' : startsDelimited cs' = true) :
    Reads (cs ++ cs') (ts ++ ts') := by
  intro before
  rw [h.run_delimited hcs', List.reverse_append, List.append_assoc]
  exact h' (ts.reverse ++ before)

/-- A text is read whole where its tokens are known. -/
theorem Reads.tokens_eq {sql : String} {ts : List Token} (h : Reads sql.toList ts) :
    tokens sql = some ts := by
  obtain ⟨s, hrun, hflush⟩ := h []
  rw [tokens, hrun, Option.bind_some, hflush]
  simp

example : tokens "LENGTH(old.\"a\"\"b\") <> 5 || 'it''s'" = some
    [.word "LENGTH", .opening, .word "OLD", .dot, .name "a\"b", .closing, .differs,
      .number 5, .bars, .text "it's"] := by
  decide

/-! ## Quoted tokens and numbers -/

theorem Lexer.run_quoted (before : List Token) (quote : Quote) (cs inside : List Char) :
    Lexer.run ⟨before, .quoted quote inside⟩
        (cs.flatMap fun c => if c = quote.char then [quote.char, quote.char] else [c]) =
      some ⟨before, .quoted quote (cs.reverse ++ inside)⟩ := by
  induction cs generalizing inside with
  | nil => rfl
  | cons c cs ih =>
      -- A quote is written twice and read as the first of two, any other character once.
      rw [List.flatMap_cons, Lexer.run_append]
      by_cases hc : c = quote.char
      · simp [Lexer.run, Lexer.step, hc] at ih ⊢
        exact ih (quote.char :: inside)
      · simp [Lexer.run, Lexer.step, hc] at ih ⊢
        exact ih (c :: inside)

/-- Behind the closing quote only the next character tells whether the token is complete. -/
theorem Lexer.run_doubled (before : List Token) (quote : Quote) (value : String) :
    Lexer.run ⟨before, .ready⟩ (Text.doubled quote.char value).toList =
      some ⟨before, .quote quote value.toList.reverse⟩ := by
  have hstart : Lexer.step ⟨before, .ready⟩ quote.char = some ⟨before, .quoted quote []⟩ := by
    cases quote <;> rfl
  rw [Text.doubled, String.toList_ofList, List.cons_append, Lexer.run_cons, hstart,
    Option.bind_some, Lexer.run_append, Lexer.run_quoted]
  simp [Lexer.run, Lexer.step]

theorem Lexer.flush_quote (before : List Token) (quote : Quote) (value : String) :
    Lexer.flush ⟨before, .quote quote value.toList.reverse⟩ =
      some (quote.token value :: before) := by
  simp [Lexer.flush]

theorem reads_doubled (quote : Quote) (value : String) :
    Reads (Text.doubled quote.char value).toList [quote.token value] :=
  fun before => ⟨_, Lexer.run_doubled before quote value, Lexer.flush_quote before quote value⟩

theorem reads_sqlLiteral (value : String) : Reads (Text.sqlLiteral value).toList [.text value] :=
  reads_doubled .text value

theorem reads_sqlIdentifier (name : String) :
    Reads (Text.sqlIdentifier name).toList [.name name] :=
  reads_doubled .name name

theorem Lexer.run_digits (before : List Token) (value : Nat) (cs : List Char)
    (hcs : ∀ c ∈ cs, c.isDigit = true) :
    Lexer.run ⟨before, .digits value⟩ cs =
      some ⟨before, .digits (Nat.ofDigitChars 10 cs value)⟩ := by
  induction cs generalizing value with
  | nil => rfl
  | cons c cs ih =>
      have hc := hcs c List.mem_cons_self
      rw [Lexer.run_cons, Nat.ofDigitChars_cons, ← ih _ fun d hd => hcs d (List.mem_cons_of_mem _ hd)]
      simp [Lexer.step, hc]

theorem Lexer.start_of_isDigit (before : List Token) {c : Char} (hc : c.isDigit = true) :
    start before c = some ⟨before, .digits (c.toNat - '0'.toNat)⟩ := by
  have hne : ∀ d : Char, d.isDigit = false → c ≠ d := by
    rintro d hd rfl
    rw [hc] at hd
    cases hd
  rw [start, if_neg (hne ' ' rfl), if_neg (hne '"' rfl), if_neg (hne '\'' rfl),
    if_neg (hne '<' rfl), if_neg (hne '|' rfl), if_pos hc]

/-- A number is read back from its decimal digits. -/
theorem reads_number (value : Nat) : Reads (toString value).toList [.number value] := by
  intro before
  have hvalue : Nat.ofDigitChars 10 (Nat.toDigits 10 value) 0 = value :=
    Nat.ofDigitChars_ten_toDigits
  have hdigits : ∀ c ∈ Nat.toDigits 10 value, c.isDigit = true := fun c hc =>
    Nat.isDigit_of_mem_toDigits (by decide) (by decide) hc
  refine ⟨⟨before, .digits value⟩, ?_, rfl⟩
  rw [show (toString value).toList = Nat.toDigits 10 value by simp]
  -- The first digit starts the number, and the others go on with it.
  cases hcs : Nat.toDigits 10 value with
  | nil => exact absurd hcs Nat.toDigits_ne_nil
  | cons c cs =>
      rw [hcs] at hdigits hvalue
      rw [Lexer.run_cons, show Lexer.step ⟨before, .ready⟩ c = Lexer.start before c from rfl,
        Lexer.start_of_isDigit before (hdigits c List.mem_cons_self), Option.bind_some,
        Lexer.run_digits _ _ _ fun d hd => hdigits d (List.mem_cons_of_mem _ hd)]
      rw [Nat.ofDigitChars_cons, Nat.mul_zero, Nat.zero_add] at hvalue
      rw [hvalue]

/-! ## Complete texts behind others -/

/-- The state behind other complete tokens. -/
def Lexer.behind (before : List Token) (s : Lexer) : Lexer := ⟨s.tokens ++ before, s.mode⟩

theorem Lexer.flush_behind (before : List Token) (s : Lexer) :
    (s.behind before).flush = s.flush.map (· ++ before) := by
  obtain ⟨ts, mode⟩ := s
  cases mode <;> rfl

theorem Lexer.start_behind (before ts : List Token) (c : Char) :
    start (ts ++ before) c = (start ts c).map (behind before) := by
  simp only [start, apply_ite (Option.map (behind before)), Option.map_some, Option.map_map]
  rfl

theorem Lexer.flush_bind_start_behind (before : List Token) (s : Lexer) (c : Char) :
    (s.behind before).flush.bind (start · c) = (s.flush.bind (start · c)).map (behind before) := by
  rw [flush_behind, Option.bind_map, Option.map_bind]
  congr 1
  funext ts
  exact start_behind before ts c

theorem Lexer.step_behind (before : List Token) (s : Lexer) (c : Char) :
    (s.behind before).step c = (s.step c).map (behind before) := by
  have hnext := flush_bind_start_behind before s c
  obtain ⟨ts, mode⟩ := s
  -- Tokens that are complete are only added to, so they can be put in front afterwards.
  cases mode with
  | ready => exact start_behind before ts c
  | word letters =>
      simp only [behind, step, apply_ite (Option.map (behind before)), Option.map_some] at hnext ⊢
      rw [hnext]
  | digits value =>
      simp only [behind, step, apply_ite (Option.map (behind before)), Option.map_some] at hnext ⊢
      rw [hnext]
      rfl
  | quoted quote inside =>
      simp only [behind, step, apply_ite (Option.map (behind before)), Option.map_some]
  | quote quote inside =>
      simp only [behind, step, apply_ite (Option.map (behind before)), Option.map_some] at hnext ⊢
      rw [hnext]
  | less =>
      simp only [behind, step, apply_ite (Option.map (behind before)), Option.map_some]
      rfl
  | bar =>
      simp only [behind, step, apply_ite (Option.map (behind before)), Option.map_some]
      rfl

theorem Lexer.run_behind (before : List Token) (s : Lexer) (cs : List Char) :
    (s.behind before).run cs = (s.run cs).map (behind before) := by
  induction cs generalizing s with
  | nil => rfl
  | cons c cs ih =>
      rw [run_cons, run_cons, step_behind]
      cases s.step c with
      | none => rfl
      | some s' => exact ih s'

/-- A text that is read alone is read alike behind other tokens. -/
theorem reads_of_tokens {sql : String} {ts : List Token} (h : tokens sql = some ts) :
    Reads sql.toList ts := by
  obtain ⟨ts', hts', rfl⟩ := Option.map_eq_some_iff.mp h
  obtain ⟨s, hrun, hflush⟩ := Option.bind_eq_some_iff.mp hts'
  intro before
  refine ⟨s.behind before, ?_, ?_⟩
  · have hbehind := Lexer.run_behind before ⟨[], .ready⟩ sql.toList
    rwa [hrun] at hbehind
  · rw [s.flush_behind, hflush, List.reverse_reverse]
    rfl

end ChangeTracking.Sql.Engine
