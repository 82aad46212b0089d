import ChangeTracking.Proofs.Sql.Reading
import ChangeTracking.Sql.Dialect
import Mathlib.Data.List.Forall2

/-!
# Spelling

Which texts read as which trees.  A text spells the items that it adds to whatever was
read before it.  Texts are put together piece by piece, and for every way of putting them
together there is one statement here that says what the whole spells.
-/

namespace ChangeTracking.Sql

/-! ## Text of fragments -/

namespace Fragment

@[simp] theorem toList_sent_append (a b : Fragment) :
    (a ++ b).sent.toList = a.sent.toList ++ b.sent.toList := by
  simp [sent]

@[simp] theorem toList_sent_ofText (text : String) : (ofText text).sent.toList = text.toList := by
  simp [sent, ofText]

@[simp] theorem toList_sent_nil : (⟨[]⟩ : Fragment).sent.toList = [] := rfl

/-- What holds of a list of fragments once they are joined, from what holds of one and of one
in front of others. -/
theorem join_rel {α : Type} {R : Fragment → α → Prop} {P : Fragment → List α → Prop}
    {separator : String} (one : ∀ f a, R f a → P f [a])
    (more : ∀ f a g as, R f a → P g as → P (f ++ ofText separator ++ g) (a :: as))
    {fs : List Fragment} {as : List α} (h : List.Forall₂ R fs as) (hne : fs ≠ []) :
    P (join separator fs) as := by
  -- The separator stands only where another fragment follows.
  induction h with
  | nil => exact absurd rfl hne
  | @cons f a fs as hfirst hrest ih =>
      cases hrest with
      | nil => exact one f a hfirst
      | cons hsecond hrest => exact more f a _ _ hfirst (ih (List.cons_ne_nil _ _))

end Fragment

namespace Engine

/-! ## Reading tokens -/

/-- Wherever they stand, the tokens are read as the items. -/
def Parses (ts : List Token) (items : List Item) : Prop :=
  ∀ frame frames, Reader.run ⟨none, frame :: frames⟩ ts =
    some ⟨none, { frame with items := items.reverse ++ frame.items } :: frames⟩

theorem Reader.run_append (reader : Reader) (ts ts' : List Token) :
    reader.run (ts ++ ts') = (reader.run ts).bind (run · ts') :=
  List.foldlM_append

theorem Parses.append {ts ts' : List Token} {items items' : List Item} (h : Parses ts items)
    (h' : Parses ts' items') : Parses (ts ++ ts') (items ++ items') := by
  intro frame frames
  rw [Reader.run_append, h, Option.bind_some, h', List.reverse_append, List.append_assoc]

/-- What stands between two brackets becomes one item. -/
theorem Parses.bracketed (bracket : Bracket) {front ts : List Token} {back : Token}
    {items : List Item} {item : Item} (h : Parses ts items)
    (hfront : ∀ frames, Reader.run ⟨none, frames⟩ front = some (Reader.enter frames bracket))
    (hback : ∀ inside frames, Reader.step ⟨none, ⟨bracket, inside⟩ :: frames⟩ back =
      Reader.close? (⟨bracket, inside⟩ :: frames))
    (hitem : bracket.close? items = some item) :
    Parses (front ++ ts ++ [back]) [item] := by
  intro frame frames
  rw [Reader.run_append, Reader.run_append, hfront, Option.bind_some, Reader.enter, h,
    Option.bind_some]
  show (Reader.step _ back).bind some = _
  rw [hback, Reader.close?]
  simp [hitem, Reader.push?, Frame.push]

/-! ## Spelling items -/

/-- Before a delimiter, or at the end, the characters add the items to what was read. -/
def Spells (cs : List Char) (items : List Item) : Prop :=
  ∃ ts, Reads cs ts ∧ Parses ts items

/-- Wherever they stand, the characters add the items to what was read. -/
def Leads (cs : List Char) (items : List Item) : Prop :=
  ∃ ts, Opens cs ts ∧ Parses ts items

theorem Leads.append_spells {cs cs' : List Char} {items items' : List Item}
    (h : Leads cs items) (h' : Spells cs' items') : Spells (cs ++ cs') (items ++ items') := by
  obtain ⟨ts, hreads, hparses⟩ := h
  obtain ⟨ts', hreads', hparses'⟩ := h'
  exact ⟨ts ++ ts', hreads.append_reads hreads', hparses.append hparses'⟩

theorem Spells.append {cs cs' : List Char} {items items' : List Item} (h : Spells cs items)
    (h' : Spells cs' items') (hcs' : startsDelimited cs' = true) :
    Spells (cs ++ cs') (items ++ items') := by
  obtain ⟨ts, hreads, hparses⟩ := h
  obtain ⟨ts', hreads', hparses'⟩ := h'
  exact ⟨ts ++ ts', hreads.append hreads' hcs', hparses.append hparses'⟩

/-- A text that joins the operands on both sides. -/
structure IsGlue (glue : String) (marks : List Item) : Prop where
  leads : Leads glue.toList marks
  delimited : startsDelimited glue.toList = true

/-- Two texts with an operator between them. -/
theorem Spells.glue {cs cs' : List Char} {glue : String} {items marks items' : List Item}
    (h : Spells cs items) (hglue : IsGlue glue marks) (h' : Spells cs' items') :
    Spells (cs ++ (glue.toList ++ cs')) (items ++ (marks ++ items')) := by
  refine h.append (hglue.leads.append_spells h') ?_
  exact startsDelimited_append hglue.delimited cs'

theorem Spells.call {name word : String} {function : Function} {cs : List Char}
    {items : List Item} {value : Value} (h : Spells cs items)
    (hname : Opens (name ++ "(").toList [.word word, .opening])
    (hword : ∀ frames, Reader.word? word frames = some ⟨some function, frames⟩)
    (hvalue : call? function items = some value) :
    Spells ((name ++ "(").toList ++ cs ++ [')']) [.value value] := by
  obtain ⟨ts, hreads, hparses⟩ := h
  refine ⟨[.word word, .opening] ++ ts ++ [.closing], ?_, ?_⟩
  · have hclosing : Opens [')'] [.closing] := fun before => rfl
    exact ((hname.append_reads hreads).append_opens hclosing rfl).reads
  · refine hparses.bracketed (.call function) ?_ (fun inside frames => rfl) ?_
    · intro frames
      show (Reader.word? word frames).bind _ = _
      rw [hword]
      rfl
    · rw [Bracket.close?, hvalue]
      rfl

/-- Brackets that do not follow the name of a function. -/
theorem Spells.group {cs : List Char} {items : List Item} {item : Item} (h : Spells cs items)
    (hitem : group? items = some item) : Spells ('(' :: cs ++ [')']) [item] := by
  obtain ⟨ts, hreads, hparses⟩ := h
  refine ⟨[.opening] ++ ts ++ [.closing], ?_, ?_⟩
  · have hopening : Opens ['('] [.opening] := fun before => rfl
    have hclosing : Opens [')'] [.closing] := fun before => rfl
    exact ((hopening.append_reads hreads).append_opens hclosing rfl).reads
  · exact hparses.bracketed .plain (fun frames => rfl) (fun inside frames => rfl) hitem

theorem Spells.choice {cs : List Char} {items : List Item} {value : Value}
    (h : Spells cs items) (hcs : startsDelimited cs = true) (hvalue : choice? items = some value) :
    Spells ("CASE".toList ++ cs ++ " END".toList) [.value value] := by
  obtain ⟨ts, hreads, hparses⟩ := h
  refine ⟨[.word "CASE"] ++ ts ++ [.word "END"], ?_, ?_⟩
  · have hcase : Reads "CASE".toList [.word "CASE"] := fun before => ⟨_, rfl, rfl⟩
    have hend : Reads " END".toList [.word "END"] := fun before => ⟨_, rfl, rfl⟩
    exact (hcase.append hreads hcs).append hend rfl
  · refine hparses.bracketed .choice (fun frames => rfl) (fun inside frames => rfl) ?_
    rw [Bracket.close?, hvalue]
    rfl

end Engine

end ChangeTracking.Sql
