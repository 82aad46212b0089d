import ChangeTracking.Binary.Encoding
import Mathlib.Algebra.Group.Nat.Defs
import Mathlib.Logic.Function.Basic

/-!
# Encodings that tell their own end

A value and whatever follows it are known from the bytes, as long as every length in the
value fits into the eight bytes that are kept for it.  This property passes from the encodings
of the parts to that of the whole, for each way in which encodings are put together.
-/

namespace ChangeTracking.Binary

open Function (Injective)

variable {α β : Type}

/-! ## Lengths -/

/-- The number of bytes is kept in eight bytes. -/
def FitsText (s : String) : Prop := (Text.utf8 s).length < 2 ^ 64

/-- The number of items is kept in eight bytes, and every item fits. -/
def FitsList (fits : α → Prop) (items : List α) : Prop :=
  items.length < 2 ^ 64 ∧ ∀ a ∈ items, fits a

def FitsTexts (items : List String) : Prop := FitsList FitsText items

/-- What is there fits. -/
def FitsOption (fits : α → Prop) (o : Option α) : Prop := ∀ a ∈ o, fits a

/-- A value that fits is known from the front of any bytes that start with its encoding; and
whatever has a short encoding fits. -/
structure SelfDelimiting (fits : α → Prop) (encode : α → List UInt8) : Prop where
  ne_nil : ∀ a, encode a ≠ []
  fits_of_length : ∀ {a : α}, (encode a).length < 2 ^ 64 → fits a
  append_inj : ∀ {a b : α} {x y : List UInt8}, fits a → fits b →
    encode a ++ x = encode b ++ y → a = b ∧ x = y

/-! ## Numbers -/

theorem length_little (width n : Nat) : (little width n).length = width := by
  induction width generalizing n with
  | zero => rfl
  | succ width ih => rw [little, List.length_cons, ih]

theorem little_inj {width m n : Nat} (hm : m < 256 ^ width) (hn : n < 256 ^ width)
    (h : little width m = little width n) : m = n := by
  induction width generalizing m n with
  | zero => omega
  | succ width ih =>
      rw [little, little, List.cons.injEq] at h
      obtain ⟨hlow, hhigh⟩ := h
      rw [Nat.pow_succ'] at hm hn
      have hlow : m % 256 = n % 256 := by
        have hlow := congrArg UInt8.toNat hlow
        rwa [UInt8.toNat_ofNat_of_lt' (Nat.mod_lt _ (by decide)),
          UInt8.toNat_ofNat_of_lt' (Nat.mod_lt _ (by decide))] at hlow
      have hhigh : m / 256 = n / 256 :=
        ih (Nat.div_lt_of_lt_mul hm) (Nat.div_lt_of_lt_mul hn) hhigh
      omega

/-- A count is known from the front of any bytes that start with it. -/
theorem nat64_append_inj {m n : Nat} {x y : List UInt8} (hm : m < 2 ^ 64) (hn : n < 2 ^ 64)
    (h : nat64 m ++ x = nat64 n ++ y) : m = n ∧ x = y := by
  obtain ⟨hcount, hxy⟩ := List.append_inj h (by rw [nat64, nat64, length_little, length_little])
  exact ⟨little_inj hm hn hcount, hxy⟩

theorem nat64_append_ne_nil (n : Nat) (x : List UInt8) : nat64 n ++ x ≠ [] := by
  refine List.append_ne_nil_of_left_ne_nil (List.ne_nil_of_length_pos ?_) x
  rw [nat64, length_little]
  decide

/-! ## Ways of putting encodings together -/

/-- Encodings of one length tell values apart by themselves. -/
theorem selfDelimiting_of_length {encode : α → List UInt8} {n : Nat} (hn : 0 < n)
    (hlength : ∀ a, (encode a).length = n) (hencode : Injective encode) :
    SelfDelimiting (fun _ => True) encode where
  ne_nil a h := by
    have hlength := hlength a
    rw [h, List.length_nil] at hlength
    omega
  fits_of_length _ := trivial
  append_inj {a b x y} _ _ h := by
    obtain ⟨hab, hxy⟩ := List.append_inj h (by rw [hlength, hlength])
    exact ⟨hencode hab, hxy⟩

namespace SelfDelimiting

variable {fits : α → Prop} {fits' : β → Prop} {encode : α → List UInt8}
  {encode' : β → List UInt8}

theorem eq_of_encode_eq (h : SelfDelimiting fits encode) {a b : α} (ha : fits a) (hb : fits b)
    (hab : encode a = encode b) : a = b :=
  (h.append_inj (x := []) (y := []) ha hb (by rw [hab])).1

theorem injective (h : SelfDelimiting fits encode) {a b : α} (ha : (encode a).length < 2 ^ 64)
    (hab : encode a = encode b) : a = b :=
  h.eq_of_encode_eq (h.fits_of_length ha) (h.fits_of_length (hab ▸ ha)) hab

/-- A record is encoded like what it holds. -/
theorem comap (h : SelfDelimiting fits encode) {f : β → α} (hf : Injective f)
    (hfits : ∀ b, fits' b ↔ fits (f b)) : SelfDelimiting fits' fun b => encode (f b) where
  ne_nil b := h.ne_nil (f b)
  fits_of_length {b} hb := (hfits b).mpr (h.fits_of_length hb)
  append_inj {a b x y} ha hb heq := by
    obtain ⟨hab, hxy⟩ := h.append_inj ((hfits a).mp ha) ((hfits b).mp hb) heq
    exact ⟨hf hab, hxy⟩

/-- One after the other. -/
theorem append (h : SelfDelimiting fits encode) (h' : SelfDelimiting fits' encode') :
    SelfDelimiting (fun p : α × β => fits p.1 ∧ fits' p.2)
      fun p => encode p.1 ++ encode' p.2 where
  ne_nil p := List.append_ne_nil_of_left_ne_nil (h.ne_nil p.1) _
  fits_of_length {p} hp := by
    rw [List.length_append] at hp
    exact ⟨h.fits_of_length (by omega), h'.fits_of_length (by omega)⟩
  append_inj {p q x y} hp hq heq := by
    rw [List.append_assoc, List.append_assoc] at heq
    obtain ⟨hfirst, hrest⟩ := h.append_inj hp.1 hq.1 heq
    obtain ⟨hsecond, hxy⟩ := h'.append_inj hp.2 hq.2 hrest
    exact ⟨Prod.ext hfirst hsecond, hxy⟩

theorem option (h : SelfDelimiting fits encode) :
    SelfDelimiting (FitsOption fits) (option encode) where
  ne_nil a := by cases a <;> exact List.cons_ne_nil _ _
  fits_of_length {o} ho := by
    rintro a rfl
    rw [Binary.option, List.length_cons] at ho
    exact h.fits_of_length (by omega)
  append_inj {a b x y} ha hb heq := by
    cases a with
    | none =>
        cases b with
        | none => exact ⟨rfl, (List.cons.inj heq).2⟩
        | some b => exact absurd (List.cons.inj heq).1 (by decide)
    | some a =>
        cases b with
        | none => exact absurd (List.cons.inj heq).1 (by decide)
        | some b =>
            obtain ⟨hab, hxy⟩ := h.append_inj (ha a rfl) (hb b rfl) (List.cons.inj heq).2
            exact ⟨congrArg some hab, hxy⟩

/-- No list is longer than its encoding. -/
theorem length_le_flatMap (h : SelfDelimiting fits encode) (items : List α) :
    items.length ≤ (items.flatMap encode).length := by
  induction items with
  | nil => exact Nat.le_refl 0
  | cons a items ih =>
      have hpos := List.length_pos_iff.mpr (h.ne_nil a)
      rw [List.flatMap_cons, List.length_append, List.length_cons]
      omega

/-- No item has a longer encoding than the list. -/
theorem fits_of_length_flatMap (h : SelfDelimiting fits encode) {items : List α}
    (hlength : (items.flatMap encode).length < 2 ^ 64) : ∀ a ∈ items, fits a := by
  intro a ha
  obtain ⟨before, after, rfl⟩ := List.append_of_mem ha
  rw [List.flatMap_append, List.flatMap_cons, List.length_append, List.length_append] at hlength
  exact h.fits_of_length (by omega)

theorem flatMap_append_inj (h : SelfDelimiting fits encode) {as bs : List α} {x y : List UInt8}
    (hlength : as.length = bs.length) (ha : ∀ a ∈ as, fits a) (hb : ∀ b ∈ bs, fits b)
    (heq : as.flatMap encode ++ x = bs.flatMap encode ++ y) : as = bs ∧ x = y := by
  -- Element by element: each encoding ends by itself, whatever follows it.
  induction as generalizing bs with
  | nil =>
      cases bs with
      | nil => exact ⟨rfl, heq⟩
      | cons b bs => cases hlength
  | cons a as ih =>
      cases bs with
      | nil => cases hlength
      | cons b bs =>
          rw [List.forall_mem_cons] at ha hb
          rw [List.flatMap_cons, List.flatMap_cons, List.append_assoc, List.append_assoc] at heq
          obtain ⟨hab, hrest⟩ := h.append_inj ha.1 hb.1 heq
          obtain ⟨habs, hxy⟩ := ih (Nat.succ.inj hlength) ha.2 hb.2 hrest
          exact ⟨by rw [hab, habs], hxy⟩

/-- The number of items comes first, so a list tells its end. -/
theorem list (h : SelfDelimiting fits encode) : SelfDelimiting (FitsList fits) (list encode) where
  ne_nil items := nat64_append_ne_nil items.length _
  fits_of_length {items} hitems := by
    have hle := h.length_le_flatMap items
    rw [Binary.list, List.length_append] at hitems
    exact ⟨by omega, h.fits_of_length_flatMap (by omega)⟩
  append_inj {as bs x y} ha hb heq := by
    rw [Binary.list, Binary.list, List.append_assoc, List.append_assoc] at heq
    obtain ⟨hlength, hitems⟩ := nat64_append_inj ha.1 hb.1 heq
    exact h.flatMap_append_inj hlength ha.2 hb.2 hitems

end SelfDelimiting

/-! ## Plain values -/

theorem selfDelimiting_bool : SelfDelimiting (fun _ => True) bool := by
  have hinj : ∀ a b, bool a = bool b → a = b := by decide
  exact selfDelimiting_of_length Nat.one_pos (fun _ => rfl) hinj

/-- A choice is encoded by its position. -/
theorem selfDelimiting_choice {index : α → Nat} (hindex : ∀ a, index a < 2 ^ 32)
    (hinj : Injective index) : SelfDelimiting (fun _ => True) fun a => nat32 (index a) :=
  selfDelimiting_of_length (n := 4) (by decide) (fun _ => length_little 4 _) fun a b h =>
    hinj (little_inj (hindex a) (hindex b) h)

theorem selfDelimiting_text : SelfDelimiting FitsText text where
  ne_nil s := nat64_append_ne_nil _ _
  fits_of_length {s} hs := by
    rw [text, List.length_append] at hs
    unfold FitsText
    omega
  append_inj {s t x y} hs ht heq := by
    rw [text, text, List.append_assoc, List.append_assoc] at heq
    obtain ⟨hlength, hbytes⟩ := nat64_append_inj hs ht heq
    obtain ⟨hst, hxy⟩ := List.append_inj hbytes hlength
    exact ⟨Text.utf8_injective hst, hxy⟩

theorem selfDelimiting_texts : SelfDelimiting FitsTexts texts := selfDelimiting_text.list

end ChangeTracking.Binary
