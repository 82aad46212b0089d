import ChangeTracking.Proofs.Text.Folding
import ChangeTracking.Text.Chars

/-!
# Question marks

A prepared statement has a question mark in the place of each parameter.  So what is put into
such a statement must bring no question marks of its own; quoting and letter case make none.
-/

namespace ChangeTracking.Text

/-- No character of the text is a question mark. -/
def Unmarked (s : String) : Prop := '?' ∉ s.toList

instance : DecidablePred Unmarked := fun s => inferInstanceAs (Decidable ('?' ∉ s.toList))

variable {s t : String}

@[simp] theorem unmarked_append : Unmarked (s ++ t) ↔ Unmarked s ∧ Unmarked t := by
  rw [Unmarked, String.toList_append, List.mem_append, not_or, Unmarked, Unmarked]

theorem unmarked_intercalate {separator : String} (hseparator : Unmarked separator)
    {texts : List String} (h : ∀ text ∈ texts, Unmarked text) :
    Unmarked (separator.intercalate texts) := by
  induction texts with
  | nil => exact List.not_mem_nil
  | cons text texts ih =>
      obtain ⟨htext, htexts⟩ := List.forall_mem_cons.mp h
      cases texts with
      | nil => rwa [String.intercalate_singleton]
      | cons next rest =>
          rw [String.intercalate_cons_cons, unmarked_append, unmarked_append]
          exact ⟨⟨htext, hseparator⟩, ih htexts⟩

/-- Where no character is spelled by question marks but the question mark, the text has none. -/
theorem Unmarked.expand {f : Char → List Char} (hf : ∀ c, '?' ∈ f c → c = '?') (h : Unmarked s) :
    Unmarked (expand f s) := by
  rw [Unmarked, toList_expand, List.mem_flatMap]
  rintro ⟨c, hc, hmark⟩
  exact h (hf c hmark ▸ hc)

theorem Unmarked.replaceChar (h : Unmarked s) (c : Char) {replacement : String}
    (hreplacement : Unmarked replacement) : Unmarked (replaceChar c replacement s) := by
  refine h.expand fun d hmark => ?_
  split at hmark
  · exact absurd hmark hreplacement
  · exact (List.mem_singleton.mp hmark).symm

theorem Unmarked.doubled (h : Unmarked s) {quote : Char} (hquote : quote ≠ '?') :
    Unmarked (doubled quote s) := by
  have hinner : '?' ∉ s.toList.flatMap (fun c => if c = quote then [quote, quote] else [c]) := by
    rw [List.mem_flatMap]
    rintro ⟨c, hc, hmark⟩
    split at hmark
    · simp [hquote.symm] at hmark
    · exact h (List.mem_singleton.mp hmark ▸ hc)
  rw [Unmarked, Text.doubled, String.toList_ofList]
  simp [hinner, hquote.symm]

theorem Unmarked.sqlLiteral (h : Unmarked s) : Unmarked (sqlLiteral s) := h.doubled (by decide)

theorem Unmarked.sqlIdentifier (h : Unmarked s) : Unmarked (sqlIdentifier s) :=
  h.doubled (by decide)

@[simp] theorem unmarked_repr (n : Nat) : Unmarked n.repr := by
  intro hmark
  rw [← Nat.toString_eq_repr, Nat.toString_eq_ofList_toDigits, String.toList_ofList] at hmark
  have hdigit := Nat.isDigit_of_mem_toDigits (b := 10) (n := n) (by decide) (by decide) hmark
  exact absurd hdigit (by decide)

/-! ## Letter case -/

namespace LetterCase

/-- No run of characters is mapped to the question mark: its first character is mapped further
on already. -/
theorem lt_of_mem_upperRuns : ∀ run ∈ upperRuns, '?'.toNat < run.first + run.shift := by
  decide +kernel

theorem not_mem_of_mem_upperLong :
    ∀ entry ∈ upperLong, '?' ∉ entry.2.map Char.ofNat := by
  decide +kernel

theorem eq_of_ofNat_eq {n : Nat} (h : Char.ofNat n = '?') : n = '?'.toNat := by
  by_cases hvalid : n.isValidChar
  · have hcode : Char.ofNat n = Char.ofNatAux n hvalid := dif_pos hvalid
    exact congrArg Char.toNat (hcode.symm.trans h)
  -- Other numbers stand for the character zero.
  · have hzero : Char.ofNat n = Char.ofNat 0 := dif_neg hvalid
    exact absurd (hzero.symm.trans h) (by decide)

/-- Only the question mark has a question mark in its upper-case form. -/
theorem eq_mark_of_mem_upperChar {c : Char} (h : '?' ∈ upperChar c) : c = '?' := by
  unfold upperChar at h
  split at h
  · rename_i hascii
    refine forall_ascii (p := fun c => '?' ∈ [c.toUpper] → c = '?') ?_ hascii h
    decide +kernel
  · unfold mapping at h
    split at h
    · rename_i codes hcodes
      obtain ⟨before, after, hlong, -⟩ := List.lookup_eq_some_iff.mp hcodes
      have hentry : (c.toNat, codes) ∈ upperLong := by simp [hlong]
      exact absurd h (not_mem_of_mem_upperLong _ hentry)
    · split at h
      · rename_i run hrun
        have hshift := lt_of_mem_upperRuns run (List.mem_of_find?_eq_some hrun)
        have hcovers := List.find?_some hrun
        have hcode := eq_of_ofNat_eq (List.mem_singleton.mp h).symm
        simp only [Run.covers, Bool.and_eq_true, decide_eq_true_eq] at hcovers
        omega
      · exact (List.mem_singleton.mp h).symm

end LetterCase

theorem Unmarked.upperCase (h : Unmarked s) : Unmarked (upperCase s) :=
  h.expand fun _ => LetterCase.eq_mark_of_mem_upperChar

/-! ## Filling in -/

/-- Put texts in the places of the question marks, from left to right.  What is put in is not
looked at again. -/
def fillMarks : List Char → List String → List Char
  | [], _ => []
  | c :: cs, [] => c :: cs
  | c :: cs, text :: texts =>
      if c = '?' then text.toList ++ fillMarks cs texts else c :: fillMarks cs (text :: texts)

/-- The statement with the texts in the places of its question marks. -/
def filled (statement : String) (texts : List String) : String :=
  String.ofList (fillMarks statement.toList texts)

theorem fillMarks_nil (cs : List Char) : fillMarks cs [] = cs := by
  cases cs <;> rfl

theorem fillMarks_append_of_not_mem {front : List Char} (h : '?' ∉ front) (cs : List Char)
    (texts : List String) : fillMarks (front ++ cs) texts = front ++ fillMarks cs texts := by
  cases texts with
  | nil => rw [fillMarks_nil, fillMarks_nil]
  | cons text texts =>
      -- The texts stay the same up to the first question mark, so the front alone is inducted on.
      induction front with
      | nil => rfl
      | cons c front ih =>
          obtain ⟨hc, hfront⟩ := not_or.mp (List.mem_cons.not.mp h)
          rw [List.cons_append, fillMarks, if_neg (Ne.symm hc), ih hfront, List.cons_append]

end ChangeTracking.Text
