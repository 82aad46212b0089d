import ChangeTracking.Proofs.Script.Pieces
import ChangeTracking.Proofs.Text.Folding
import Mathlib.Data.List.Chain

/-!
# Dollar signs

A text is tame if it has no two dollar signs in a row, nor gets them behind a text that ends
with one.  Tame texts can be put behind one another; and whatever encloses a text, escapes
it or indents it yields a tame text, if only the text has no two dollar signs in a row.
-/

namespace ChangeTracking.Text

/-- No dollar sign follows another one. -/
def SingleDollars (cs : List Char) : Prop := cs.IsChain fun c d => ¬ (c = '$' ∧ d = '$')

/-- No dollar sign follows another one, even if one stands in front of the text. -/
def Tame (s : String) : Prop := SingleDollars ('$' :: s.toList)

instance : DecidablePred SingleDollars := fun cs =>
  inferInstanceAs (Decidable (cs.IsChain fun c d => ¬ (c = '$' ∧ d = '$')))

instance : DecidablePred Tame := fun s =>
  inferInstanceAs (Decidable (SingleDollars ('$' :: s.toList)))

variable {s t : String} {cs : List Char}

theorem singleDollars_cons {c : Char} (hc : c ≠ '$') (h : SingleDollars cs) :
    SingleDollars (c :: cs) := by
  cases cs with
  | nil => exact List.isChain_singleton _
  | cons d cs => exact List.isChain_cons_cons.mpr ⟨fun hboth => hc hboth.1, h⟩

theorem SingleDollars.of_isInfix (h : SingleDollars cs) {part : List Char} (hpart : part <:+: cs) :
    SingleDollars part :=
  List.IsChain.infix h hpart

theorem SingleDollars.left (h : SingleDollars (s ++ t).toList) : SingleDollars s.toList :=
  h.of_isInfix (String.toList_append ▸ (List.prefix_append _ _).isInfix)

theorem SingleDollars.right (h : SingleDollars (s ++ t).toList) : SingleDollars t.toList :=
  h.of_isInfix (String.toList_append ▸ (List.suffix_append _ _).isInfix)

theorem Tame.singleDollars (h : Tame s) : SingleDollars s.toList :=
  SingleDollars.of_isInfix h (List.suffix_cons _ _).isInfix

theorem tame_iff : Tame s ↔ SingleDollars s.toList ∧ s.toList.head? ≠ some '$' := by
  unfold Tame SingleDollars
  cases s.toList with
  | nil => simp
  | cons c cs => simp [and_comm]

/-- A text is tame if its characters are: those of a literal are at hand without decoding it. -/
theorem tame_ofList (h : SingleDollars ('$' :: cs)) : Tame (String.ofList cs) := by
  unfold Tame
  rwa [String.toList_ofList]

/-! ## Texts out of tame texts -/

theorem Tame.append (hs : Tame s) (ht : Tame t) : Tame (s ++ t) := by
  rw [tame_iff] at ht
  unfold Tame SingleDollars at hs ⊢
  rw [String.toList_append, ← List.cons_append, List.isChain_append]
  refine ⟨hs, ht.1, fun c _ d hd hdollars => ht.2 ?_⟩
  rw [← hdollars.2]
  exact hd

/-- A tame text is spliced in between what there is so far and the literal behind it. -/
theorem Tame.splice (hs : Tame s) (ht : Tame t) (hcs : SingleDollars ('$' :: cs)) :
    Tame (s ++ t ++ String.ofList cs) :=
  (hs.append ht).append (tame_ofList hcs)

theorem tame_join {texts : List String} (h : ∀ text ∈ texts, Tame text) :
    Tame (String.join texts) := by
  induction texts with
  | nil => decide
  | cons text texts ih =>
      obtain ⟨htext, htexts⟩ := List.forall_mem_cons.mp h
      rw [String.join_cons]
      exact htext.append (ih htexts)

theorem tame_intercalate {separator : String} (hseparator : Tame separator) {texts : List String}
    (h : ∀ text ∈ texts, Tame text) : Tame (separator.intercalate texts) := by
  induction texts with
  | nil => exact List.isChain_singleton _
  | cons text texts ih =>
      obtain ⟨htext, htexts⟩ := List.forall_mem_cons.mp h
      cases texts with
      | nil => simpa using htext
      | cons next rest =>
          rw [String.intercalate_cons_cons]
          exact (htext.append hseparator).append (ih htexts)

/-! ## Characters replaced one by one -/

/-- The replacement keeps dollar signs, and makes no others. -/
structure KeepsDollars (f : Char → List Char) : Prop where
  dollar : f '$' = ['$']
  other : ∀ c, c ≠ '$' → f c ≠ [] ∧ '$' ∉ f c

theorem singleDollars_append_of_not_mem {part rest : List Char} (hpart : part ≠ [])
    (hdollar : '$' ∉ part) (hrest : ∀ c, c ≠ '$' → SingleDollars (c :: rest)) (c : Char) :
    SingleDollars (c :: (part ++ rest)) := by
  induction part generalizing c with
  | nil => exact absurd rfl hpart
  | cons d part ih =>
      rw [List.mem_cons, not_or] at hdollar
      refine List.isChain_cons_cons.mpr ⟨fun hdollars => hdollar.1 hdollars.2.symm, ?_⟩
      cases part with
      | nil => exact hrest d (Ne.symm hdollar.1)
      | cons e part => exact ih (List.cons_ne_nil _ _) hdollar.2 d

/-- Behind a character that is a dollar sign only if the original one was, the replaced text
has dollar signs in a row only if the original text had them. -/
theorem SingleDollars.cons_flatMap {f : Char → List Char} (hf : KeepsDollars f) {c d : Char}
    (hd : d = '$' → c = '$') (h : SingleDollars (c :: cs)) : SingleDollars (d :: cs.flatMap f) := by
  induction cs generalizing c d with
  | nil => exact List.isChain_singleton _
  | cons e cs ih =>
      obtain ⟨hdollars, hrest⟩ := List.isChain_cons_cons.mp h
      rw [List.flatMap_cons]
      by_cases he : e = '$'
      · rw [he, hf.dollar]
        refine List.isChain_cons_cons.mpr ⟨fun hboth => hdollars ⟨hd hboth.1, he⟩, ?_⟩
        exact ih (fun _ => he) hrest
      · exact singleDollars_append_of_not_mem (hf.other e he).1 (hf.other e he).2
          (fun c hc => ih (fun heq => absurd heq hc) hrest) d

theorem Tame.expand {f : Char → List Char} (hf : KeepsDollars f) (h : Tame s) :
    Tame (expand f s) := by
  unfold Tame
  rw [toList_expand]
  exact SingleDollars.cons_flatMap hf id h

/-- A text between two marks is tame, however it is escaped. -/
theorem tame_enclosed {f : Char → List Char} (hf : KeepsDollars f) {mark : Char}
    (hmark : mark ≠ '$') (h : SingleDollars cs) :
    Tame (String.ofList (mark :: cs.flatMap f ++ [mark])) := by
  have hinner : SingleDollars (mark :: cs.flatMap f) := by
    exact SingleDollars.cons_flatMap hf id (singleDollars_cons hmark h)
  unfold Tame SingleDollars
  rw [String.toList_ofList, List.cons_append, List.isChain_cons_cons, ← List.cons_append,
    List.isChain_append]
  refine ⟨fun hboth => hmark hboth.2, hinner, List.isChain_singleton _, ?_⟩
  rintro c - d hd ⟨-, rfl⟩
  exact hmark (Option.some.inj hd)

theorem keepsDollars_doubled {quote : Char} (hquote : quote ≠ '$') :
    KeepsDollars fun c => if c = quote then [quote, quote] else [c] where
  dollar := if_neg (Ne.symm hquote)
  other c hc := by
    split
    · simpa using Ne.symm hquote
    · simpa using Ne.symm hc

theorem keepsDollars_javaEscape : KeepsDollars javaEscape where
  dollar := rfl
  other c hc := by
    unfold javaEscape
    split
    · decide
    · decide
    · decide
    · simpa using Ne.symm hc

theorem tame_sqlLiteral (h : SingleDollars s.toList) : Tame (sqlLiteral s) :=
  tame_enclosed (keepsDollars_doubled (by decide)) (by decide) h

theorem tame_sqlIdentifier (h : SingleDollars s.toList) : Tame (sqlIdentifier s) :=
  tame_enclosed (keepsDollars_doubled (by decide)) (by decide) h

theorem tame_javaLiteral (h : SingleDollars s.toList) : Tame (javaLiteral s) :=
  tame_enclosed keepsDollars_javaEscape (by decide) h

theorem Tame.replaceChar (h : Tame s) {c : Char} (hc : c ≠ '$') {replacement : String}
    (hnonempty : replacement.toList ≠ []) (hdollar : '$' ∉ replacement.toList) :
    Tame (replaceChar c replacement s) := by
  refine h.expand ⟨if_neg (Ne.symm hc), fun d hd => ?_⟩
  split
  · exact ⟨hnonempty, hdollar⟩
  · simpa using Ne.symm hd

theorem tame_of_not_mem (h : '$' ∉ s.toList) : Tame s := by
  unfold Tame
  generalize s.toList = cs at h
  induction cs with
  | nil => exact List.isChain_singleton _
  | cons c cs ih =>
      rw [List.mem_cons, not_or] at h
      refine List.isChain_cons_cons.mpr ⟨fun hboth => h.1 hboth.2.symm, ?_⟩
      exact singleDollars_cons (Ne.symm h.1)
        ((ih h.2).of_isInfix (List.suffix_cons _ _).isInfix)

theorem tame_toString (n : Nat) : Tame (toString n) := by
  refine tame_of_not_mem fun hdollar => ?_
  rw [Nat.toString_eq_ofList_toDigits, String.toList_ofList] at hdollar
  have hdigit := Nat.isDigit_of_mem_toDigits (b := 10) (n := n) (by decide) (by decide) hdollar
  exact absurd hdigit (by decide)

/-! ## Lines -/

theorem isPrefix_withoutReturn (line : List Char) : withoutReturn line <+: line := by
  unfold withoutReturn
  split
  · rename_i rest hrest
    have heq : line = rest.reverse ++ ['\r'] := by
      rw [← List.reverse_reverse line, hrest, List.reverse_cons]
    rw [heq]
    exact List.prefix_append _ _
  · exact List.prefix_refl _

/-- Every line is a part of the text. -/
theorem infix_of_mem_linesFrom {current line : List Char} (h : line ∈ linesFrom current cs) :
    line <:+: current.reverse ++ cs := by
  fun_induction linesFrom current cs with
  | case1 => cases h
  | case2 c current => exact ⟨[], [], by simpa using List.mem_singleton.mp h⟩
  | case3 current cs ih =>
      rcases List.mem_cons.mp h with rfl | h
      · exact ((isPrefix_withoutReturn _).trans (List.prefix_append _ _)).isInfix
      · exact (ih h).trans ⟨current.reverse ++ ['\n'], [], by simp⟩
  | case4 current c cs _ ih =>
      refine (ih h).trans ⟨[], [], by simp⟩

/-- Indented text is tame: the dollar signs at the beginnings of its lines stand behind blanks. -/
theorem tame_indent (depth : Nat) (h : SingleDollars s.toList) : Tame (indent (depth + 1) s) := by
  refine tame_intercalate (by decide) fun text htext => ?_
  obtain ⟨line, hline, rfl⟩ := List.mem_map.mp htext
  obtain ⟨cs, hcs, rfl⟩ := List.mem_map.mp hline
  split
  · decide
  · have hinfix : SingleDollars cs := h.of_isInfix (infix_of_mem_linesFrom hcs)
    unfold Tame
    rw [String.toList_append, String.toList_ofList, String.toList_ofList]
    refine singleDollars_append_of_not_mem ?_ ?_ (fun c hc => singleDollars_cons hc hinfix) '$'
    · simp
    · simp

/-! ## Dollar quotes -/

/-- Two dollar signs stand in a row at the position. -/
def DollarsAt (cs : List Char) (i : Nat) : Prop := ['$', '$'] <+: cs.drop i

theorem SingleDollars.not_dollarsAt (h : SingleDollars cs) (i : Nat) : ¬ DollarsAt cs i := by
  intro hdollars
  have hpair : SingleDollars ['$', '$'] :=
    h.of_isInfix (hdollars.isInfix.trans (List.drop_suffix i cs).isInfix)
  exact absurd hpair (by decide)

theorem exists_dollarsAt (h : ¬ SingleDollars cs) : ∃ i, DollarsAt cs i := by
  induction cs with
  | nil => exact absurd List.isChain_nil h
  | cons c cs ih =>
      cases cs with
      | nil => exact absurd (List.isChain_singleton c) h
      | cons d cs =>
          by_cases hboth : c = '$' ∧ d = '$'
          · obtain ⟨rfl, rfl⟩ := hboth
            exact ⟨0, cs, rfl⟩
          · obtain ⟨i, hi⟩ := ih fun hrest => h (List.isChain_cons_cons.mpr ⟨hboth, hrest⟩)
            exact ⟨i + 1, hi⟩

theorem DollarsAt.le_length {i : Nat} (h : DollarsAt cs i) : i + 2 ≤ cs.length := by
  have hlength := h.length_le
  rw [List.length_drop] at hlength
  simp only [List.length_cons, List.length_nil] at hlength
  omega

theorem DollarsAt.append {i : Nat} (h : DollarsAt cs i) (rest : List Char) :
    DollarsAt (cs ++ rest) i := by
  unfold DollarsAt at h ⊢
  rw [List.drop_append]
  exact h.trans (List.prefix_append _ _)

theorem DollarsAt.behind {i : Nat} (h : DollarsAt cs i) (front : List Char) :
    DollarsAt (front ++ cs) (front.length + i) := by
  unfold DollarsAt at h ⊢
  rwa [← List.drop_drop, List.drop_left]

/-- A text that may stand in front of a dollar sign has two of them in a row first where they
are put behind it. -/
theorem dollarsAt_append {front : List Char} (h : SingleDollars (front ++ ['$'])) (rest : List Char)
    (i : Nat) : DollarsAt (front ++ '$' :: '$' :: rest) i ↔
      i = front.length ∨ ∃ j, i = front.length + 1 + j ∧ DollarsAt ('$' :: rest) j := by
  have hbehind (j : Nat) :
      (front ++ '$' :: '$' :: rest).drop (front.length + 1 + j) = ('$' :: rest).drop j := by
    rw [Nat.add_assoc, ← List.drop_drop, List.drop_left, Nat.add_comm, List.drop_succ_cons]
  constructor
  · intro hdollars
    rcases Nat.lt_trichotomy i front.length with hlt | heq | hgt
    · -- Both signs would stand in the text or at its end.
      refine absurd ?_ (h.not_dollarsAt i)
      have hsplit : (front ++ '$' :: '$' :: rest).drop i =
          (front ++ ['$']).drop i ++ '$' :: rest := by
        rw [← List.drop_append_of_le_length (by simp; omega), List.append_assoc]
        rfl
      unfold DollarsAt at hdollars
      rw [hsplit] at hdollars
      refine List.prefix_of_prefix_length_le hdollars (List.prefix_append _ _) ?_
      simp
      omega
    · exact .inl heq
    · obtain ⟨j, rfl⟩ := Nat.exists_eq_add_of_le hgt
      refine .inr ⟨j, rfl, ?_⟩
      unfold DollarsAt at hdollars ⊢
      rwa [← hbehind]
  · rintro (rfl | ⟨j, rfl, hdollars⟩)
    · unfold DollarsAt
      rw [List.drop_left]
      exact ⟨rest, rfl⟩
    · unfold DollarsAt at hdollars ⊢
      rwa [hbehind]

/-- The text is quoted by two dollar signs on either side, behind the first text and in front of
the last one, and no other dollar signs stand in a row. -/
def DollarQuoted (opening closing source : String) : Prop :=
  ∃ head body tail, source = head ++ "$$" ++ body ++ "$$" ++ tail ∧
    opening.toList <:+ head.toList ∧ closing.toList <+: tail.toList ∧
    ∀ i, DollarsAt source.toList i ↔ i = head.length ∨ i = head.length + 2 + body.length

theorem dollarQuoted_of_tame {opening closing head body tail : String} (hhead : Tame head)
    (hopening : Tame (opening ++ "$")) (hbody : Tame body) (hclosing : Tame closing)
    (htail : Tame tail) : DollarQuoted opening closing
      (head ++ opening ++ "$$" ++ (body ++ "\n") ++ "$$" ++ (closing ++ tail)) := by
  refine ⟨head ++ opening, body ++ "\n", closing ++ tail, rfl, ?_, ?_, fun i => ?_⟩
  · rw [String.toList_append]
    exact List.suffix_append _ _
  · rw [String.toList_append]
    exact List.prefix_append _ _
  have hfront : SingleDollars ((head ++ opening).toList ++ ['$']) := by
    have hsingle := (hhead.append hopening).singleDollars
    rwa [← String.append_assoc, String.toList_append] at hsingle
  have hinner : SingleDollars ('$' :: (body ++ "\n").toList ++ ['$']) := by
    have hend : Tame ("\n" ++ "$") := by decide
    have htame := hbody.append hend
    unfold Tame at htame
    rwa [← String.append_assoc, String.toList_append] at htame
  have hlist : (head ++ opening ++ "$$" ++ (body ++ "\n") ++ "$$" ++ (closing ++ tail)).toList =
      (head ++ opening).toList ++
        '$' :: '$' :: ((body ++ "\n").toList ++ '$' :: '$' :: (closing ++ tail).toList) := by
    rw [String.toList_append, String.toList_append, String.toList_append, String.toList_append,
      List.append_assoc, List.append_assoc, List.append_assoc]
    rfl
  have hrest : '$' :: ((body ++ "\n").toList ++ '$' :: '$' :: (closing ++ tail).toList) =
      '$' :: (body ++ "\n").toList ++ '$' :: '$' :: (closing ++ tail).toList := rfl
  rw [hlist, dollarsAt_append hfront, hrest]
  -- Behind the opening quote its second sign still counts as a sign in front of the body.
  simp only [dollarsAt_append hinner, List.length_cons, String.length_toList]
  constructor
  · rintro (hi | ⟨j, hi, hj | ⟨k, -, hk⟩⟩)
    · exact .inl hi
    · right
      omega
    · exact absurd hk ((hclosing.append htail).not_dollarsAt k)
  · rintro (hi | hi)
    · exact .inl hi
    · exact .inr ⟨(body ++ "\n").length + 1, by omega, .inl rfl⟩

/-- Dollar quotes are not the only ones where the text around them has some. -/
theorem not_dollarQuoted {opening closing front body back : String}
    (h : ¬ SingleDollars front.toList ∨ ¬ SingleDollars back.toList) :
    ¬ DollarQuoted opening closing (front ++ "$$" ++ body ++ "$$" ++ back) := by
  rintro ⟨head, inner, tail, -, -, -, hall⟩
  have hlist : (front ++ "$$" ++ body ++ "$$" ++ back).toList =
      front.toList ++ (['$', '$'] ++ (body.toList ++ (['$', '$'] ++ back.toList))) := by
    rw [String.toList_append, String.toList_append, String.toList_append, String.toList_append,
      List.append_assoc, List.append_assoc, List.append_assoc]
    rfl
  have hquotes (rest : List Char) : DollarsAt (['$', '$'] ++ rest) 0 := List.prefix_append _ _
  rw [hlist] at hall
  -- Both quotes are taken, so dollar signs in front of them or behind them are one pair too many.
  have hfirst := (hall _).mp ((hquotes _).behind front.toList)
  have hsecond := (hall _).mp ((((hquotes _).behind body.toList).behind ['$', '$']).behind
    front.toList)
  simp only [List.length_cons, List.length_nil] at hfirst hsecond
  rcases h with hfront | hback
  · obtain ⟨i, hi⟩ := exists_dollarsAt hfront
    have hthird := (hall i).mp (hi.append _)
    have hlength := hi.le_length
    omega
  · obtain ⟨i, hi⟩ := exists_dollarsAt hback
    have hthird := (hall _).mp ((((hi.behind ['$', '$']).behind body.toList).behind
      ['$', '$']).behind front.toList)
    simp only [List.length_cons, List.length_nil] at hthird
    omega

end ChangeTracking.Text
