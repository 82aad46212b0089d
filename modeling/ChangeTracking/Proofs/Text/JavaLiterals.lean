import ChangeTracking.Text.Chars
import Mathlib.Algebra.Group.Nat.Even
import Mathlib.Data.List.Infix

/-!
# Java literals

Java replaces Unicode escapes in a source, finds the quote that ends a literal on its line, and
reads the escapes inside.  A written literal is read as its text, wherever it stands, unless the
text has a carriage return: this is not escaped, and ends the line like a line feed.
-/

namespace ChangeTracking.Text

/-! ## Reading literals -/

/-- The character ends a line of a source. -/
def isLineEnd (c : Char) : Bool := c == '\n' || c == '\r'

/-- Read up to the quote that ends a literal on its line.  A backslash takes the next character
with it. -/
def readJavaInside : List Char → Option (List Char × List Char)
  | [] => none
  | [c] => if c = '"' then some ([], []) else none
  | c :: d :: cs =>
      if c = '"' then some ([], d :: cs)
      else if isLineEnd c then none
      else if c = '\\' then
        if isLineEnd d then none
        else (readJavaInside cs).map fun read => (c :: d :: read.1, read.2)
      else (readJavaInside (d :: cs)).map fun read => (c :: read.1, read.2)

/-- What a character behind a backslash stands for, unless it is a digit. -/
def escaped? : Char → Option Char
  | 'b' => some '\x08'
  | 's' => some ' '
  | 't' => some '\t'
  | 'n' => some '\n'
  | 'f' => some '\x0c'
  | 'r' => some '\r'
  | '"' => some '"'
  | '\'' => some '\''
  | '\\' => some '\\'
  | _ => none

def octalDigit? (c : Char) : Option Nat :=
  if '0' ≤ c ∧ c ≤ '7' then some (c.toNat - '0'.toNat) else none

/-- An octal escape of which some digits were read, and how many more there may be. -/
structure OctalEscape where
  value : Nat
  more : Nat

/-- Read escapes behind the digits of an octal escape, or behind none.  The values of octal escapes
end at 377, so a first digit above 3 is followed by one more at most. -/
def unescapedFrom (octal : Option OctalEscape) : List Char → Option (List Char)
  | [] => some (octal.toList.map fun o => Char.ofNat o.value)
  | c :: cs =>
      match octal, octalDigit? c with
      | some ⟨value, more + 1⟩, some digit => unescapedFrom (some ⟨8 * value + digit, more⟩) cs
      | _, _ =>
          let before := octal.toList.map fun o => Char.ofNat o.value
          if c = '\\' then
            match cs with
            | [] => none
            | d :: cs =>
                match escaped? d with
                | some e => (unescapedFrom none cs).map fun read => before ++ e :: read
                | none => (octalDigit? d).bind fun digit =>
                    (unescapedFrom (some ⟨digit, if digit < 4 then 2 else 1⟩) cs).map (before ++ ·)
          else (unescapedFrom none cs).map fun read => before ++ c :: read

/-- The text that the inside of a literal stands for. -/
def unescaped (cs : List Char) : Option (List Char) := unescapedFrom none cs

/-- Read a literal, and what follows it. -/
def readJavaLiteral (text : String) : Option (String × String) :=
  match text.toList with
  | '"' :: cs => (readJavaInside cs).bind fun read =>
      (unescaped read.1).map fun value => (String.ofList value, String.ofList read.2)
  | _ => none

/-- How many backslashes stand in a row at the end. -/
def finalBackslashes (cs : List Char) : Nat := (cs.reverse.takeWhile (· == '\\')).length

/-- A Unicode escape begins at the position: a backslash that is followed by `u`, unless an odd
number of backslashes stands in front of it, of which the last takes it. -/
def UnicodeEscapeAt (cs : List Char) (i : Nat) : Prop :=
  ['\\', 'u'] <+: cs.drop i ∧ Even (finalBackslashes (cs.take i))

example : readJavaLiteral "\"\\101\\60\\\\u0042\\t\" + x" = some ("A0\\u0042\t", " + x") := by
  decide +kernel

/-! ## Escapes -/

variable {c d : Char} {cs rest : List Char}

/-- A character stands for itself or behind a backslash. -/
theorem javaEscape_cases (c : Char) :
    (javaEscape c = [c] ∧ c ≠ '\\' ∧ c ≠ '"' ∧ c ≠ '\n') ∨
      ∃ d, javaEscape c = ['\\', d] ∧ escaped? d = some c ∧ isLineEnd d = false ∧ c ≠ '\r' := by
  unfold javaEscape
  split
  · exact .inr ⟨'\\', rfl, rfl, rfl, by decide⟩
  · exact .inr ⟨'"', rfl, rfl, rfl, by decide⟩
  · exact .inr ⟨'n', rfl, rfl, rfl, by decide⟩
  · exact .inl ⟨rfl, by assumption, by assumption, by assumption⟩

theorem unescaped_cons (hc : c ≠ '\\') :
    unescaped (c :: cs) = (unescaped cs).map (c :: ·) := by
  rw [unescaped, unescaped, unescapedFrom.eq_def]
  simp [hc]

theorem unescaped_backslash (hd : escaped? d = some c) :
    unescaped ('\\' :: d :: cs) = (unescaped cs).map (c :: ·) := by
  simp [unescaped, unescapedFrom, hd]

/-- Reading the escapes gives the text back, with its carriage returns. -/
theorem unescaped_flatMap_javaEscape (cs : List Char) :
    unescaped (cs.flatMap javaEscape) = some cs := by
  induction cs with
  | nil => rfl
  | cons c cs ih =>
      rw [List.flatMap_cons]
      obtain ⟨hc, hne, -⟩ | ⟨d, hc, hd, -⟩ := javaEscape_cases c
      · rw [hc, List.singleton_append, unescaped_cons hne, ih, Option.map_some]
      · rw [hc, List.cons_append, List.singleton_append, unescaped_backslash hd, ih,
          Option.map_some]

theorem readJavaInside_cons (hbackslash : c ≠ '\\') (hquote : c ≠ '"') :
    readJavaInside (c :: cs) =
      if isLineEnd c then none
      else (readJavaInside cs).map fun read => (c :: read.1, read.2) := by
  cases cs with
  | nil => simp [readJavaInside, hquote]
  | cons d cs => rw [readJavaInside, if_neg hquote, if_neg hbackslash]

theorem readJavaInside_backslash (hd : isLineEnd d = false) :
    readJavaInside ('\\' :: d :: cs) =
      (readJavaInside cs).map fun read => ('\\' :: d :: read.1, read.2) := by
  rw [readJavaInside, if_neg (by decide), if_neg (by decide), if_pos rfl, hd]
  rfl

theorem readJavaInside_quote (rest : List Char) :
    readJavaInside ('"' :: rest) = some ([], rest) := by
  cases rest <;> rfl

/-- The quote that ends the literal is the first that no backslash takes; a carriage return in front
of it ends the line. -/
theorem readJavaInside_flatMap_javaEscape (cs rest : List Char) :
    readJavaInside (cs.flatMap javaEscape ++ '"' :: rest) =
      if '\r' ∈ cs then none else some (cs.flatMap javaEscape, rest) := by
  induction cs with
  | nil => exact readJavaInside_quote rest
  | cons c cs ih =>
      rw [List.flatMap_cons, List.append_assoc]
      obtain ⟨hc, hbackslash, hquote, hfeed⟩ | ⟨d, hc, -, hend, hreturn⟩ := javaEscape_cases c
      · rw [hc, List.singleton_append, readJavaInside_cons hbackslash hquote, ih]
        by_cases hreturn : c = '\r'
        · simp [hreturn, isLineEnd]
        · simp [hreturn, Ne.symm hreturn, isLineEnd, hfeed, apply_ite]
      · rw [hc, List.cons_append, List.singleton_append, readJavaInside_backslash hend, ih]
        simp [Ne.symm hreturn, apply_ite]

/-! ## Line ends and Unicode escapes -/

/-- Of the characters that end a line, all but line feeds stay. -/
theorem mem_flatMap_javaEscape_iff (hend : isLineEnd c = true) :
    c ∈ cs.flatMap javaEscape ↔ c ∈ cs ∧ c ≠ '\n' := by
  rw [List.mem_flatMap]
  constructor
  · rintro ⟨e, he, hc⟩
    obtain ⟨heq, -, -, hfeed⟩ | ⟨d, heq, -, hd, -⟩ := javaEscape_cases e
    · rw [heq, List.mem_singleton] at hc
      rw [hc]
      exact ⟨he, hfeed⟩
    · rw [heq] at hc
      rcases List.mem_cons.mp hc with rfl | hc
      · cases hend
      · rw [List.mem_singleton.mp hc, hd] at hend
        cases hend
  · rintro ⟨hc, hfeed⟩
    obtain rfl : c = '\r' := by simpa [isLineEnd, hfeed] using hend
    exact ⟨'\r', hc, List.mem_singleton_self _⟩

@[simp] theorem finalBackslashes_concat_backslash (cs : List Char) :
    finalBackslashes (cs ++ ['\\']) = finalBackslashes cs + 1 := by
  simp [finalBackslashes]

@[simp] theorem finalBackslashes_concat (hc : c ≠ '\\') (cs : List Char) :
    finalBackslashes (cs ++ [c]) = 0 := by
  simp [finalBackslashes, hc]

/-- Inside a literal each backslash in front of `u` is the second of two. -/
theorem odd_finalBackslashes {front before after : List Char}
    (hfront : Even (finalBackslashes front))
    (h : cs.flatMap javaEscape = before ++ '\\' :: 'u' :: after) :
    ¬ Even (finalBackslashes (front ++ before)) := by
  induction cs generalizing front before with
  | nil => simp at h
  | cons c cs ih =>
      rw [List.flatMap_cons] at h
      obtain ⟨hc, hne, -⟩ | ⟨d, hc, hd, -⟩ := javaEscape_cases c
      · rw [hc, List.singleton_append] at h
        cases before with
        | nil => exact absurd (List.cons.inj h).1 hne
        | cons b before =>
            obtain ⟨rfl, hrest⟩ := List.cons.inj h
            rw [List.append_cons]
            exact ih (by simp [hne]) hrest
      · rw [hc, List.cons_append, List.singleton_append] at h
        match before with
        | [] =>
            -- The backslash would be an escape of its own.
            obtain ⟨rfl, -⟩ := List.cons.inj (List.cons.inj h).2
            cases hd
        | [b] =>
            obtain ⟨hb, -⟩ := List.cons.inj h
            rw [← hb, finalBackslashes_concat_backslash, Nat.even_add_one, not_not]
            exact hfront
        | b :: b' :: before =>
            obtain ⟨hb, htail⟩ := List.cons.inj h
            obtain ⟨hb', hrest⟩ := List.cons.inj htail
            rw [← hb, ← hb', List.append_cons, List.append_cons]
            refine ih ?_ hrest
            by_cases hd : d = '\\'
            · rw [hd, finalBackslashes_concat_backslash, finalBackslashes_concat_backslash,
                Nat.even_add_one, Nat.even_add_one, not_not]
              exact hfront
            · rw [finalBackslashes_concat hd]
              exact Even.zero

/-- No Unicode escape begins in a written literal, whatever the source is around it. -/
theorem not_unicodeEscapeAt_javaLiteral (s : String) (front back : List Char) {i : Nat}
    (hi : i < (javaLiteral s).length) :
    ¬ UnicodeEscapeAt (front ++ (javaLiteral s).toList ++ back) (front.length + i) := by
  rintro ⟨hescape, heven⟩
  rw [javaLiteral, String.length_ofList] at hi
  rw [javaLiteral, String.toList_ofList, List.append_assoc] at hescape heven
  rw [← List.drop_drop, List.drop_left] at hescape
  rw [List.take_length_add_append] at heven
  generalize hinside : s.toList.flatMap javaEscape = inside at hi hescape heven
  cases i with
  | zero => simp at hescape
  | succ i =>
      have hle : i ≤ inside.length := Nat.le_of_lt_succ (by simpa using hi)
      simp only [List.cons_append, List.append_assoc, List.nil_append, List.drop_succ_cons,
        List.take_succ_cons, List.drop_append_of_le_length hle,
        List.take_append_of_le_length hle] at hescape heven
      -- The closing quote is neither of the two characters.
      obtain ⟨after, hafter⟩ : ∃ after, inside.drop i = '\\' :: 'u' :: after := by
        match hdrop : inside.drop i with
        | [] => simp [hdrop] at hescape
        | [b] => simp [hdrop] at hescape
        | b :: b' :: after =>
            rw [hdrop, List.cons_append, List.cons_append] at hescape
            obtain ⟨hb, htail⟩ := List.cons_prefix_cons.mp hescape
            exact ⟨after, by rw [hb, (List.cons_prefix_cons.mp htail).1]⟩
      have hsplit : s.toList.flatMap javaEscape = inside.take i ++ '\\' :: 'u' :: after := by
        rw [hinside, ← hafter, List.take_append_drop]
      rw [List.append_cons] at heven
      exact odd_finalBackslashes (by simp) hsplit heven

/-! ## Written literals -/

theorem toList_javaLiteral (s : String) :
    (javaLiteral s).toList = '"' :: (s.toList.flatMap javaEscape ++ ['"']) := by
  rw [javaLiteral, String.toList_ofList, List.cons_append]

theorem mem_javaLiteral_iff (hend : isLineEnd c = true) (s : String) :
    c ∈ (javaLiteral s).toList ↔ c ∈ s.toList ∧ c ≠ '\n' := by
  have hquote : c ≠ '"' := by
    rintro rfl
    cases hend
  rw [toList_javaLiteral, List.mem_cons, List.mem_append, mem_flatMap_javaEscape_iff hend]
  simp [hquote]

theorem feed_not_mem_javaLiteral (s : String) : '\n' ∉ (javaLiteral s).toList := by
  have hend : isLineEnd '\n' = true := rfl
  simp [mem_javaLiteral_iff hend]

/-- A written literal is read as its text, and what follows is left, exactly if the text has no
carriage return. -/
theorem readJavaLiteral_javaLiteral (s rest : String) :
    readJavaLiteral (javaLiteral s ++ rest) =
      if '\r' ∈ s.toList then none else some (s, rest) := by
  have htext : (javaLiteral s ++ rest).toList =
      '"' :: (s.toList.flatMap javaEscape ++ '"' :: rest.toList) := by
    rw [String.toList_append, toList_javaLiteral]
    simp
  rw [readJavaLiteral, htext]
  simp only [readJavaInside_flatMap_javaEscape]
  split
  · rfl
  · simp [unescaped_flatMap_javaEscape]

end ChangeTracking.Text
