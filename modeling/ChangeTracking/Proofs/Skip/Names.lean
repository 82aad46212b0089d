import ChangeTracking.Skip.Scope
import ChangeTracking.Text.Chars

/-!
# Names of skip flags

A flag name spells the names of its scope byte by byte, each byte as one character or as
an underscore with two digits.  What a byte is spelled as is read back from the front of
any text, and two underscores in a row spell none; so the two parts of a name come apart
in one way, and flags share a name when their scopes differ in ASCII letter case at most.
-/

namespace ChangeTracking.Skip

/-! ## Bytes without letter case -/

/-- The byte in lower case where it is an ASCII letter. -/
def lowerByte (byte : UInt8) : UInt8 := if 65 ≤ byte && byte ≤ 90 then byte + 32 else byte

/-- What holds of the first 256 numbers as bytes holds of every byte. -/
theorem forall_byte {p : UInt8 → Prop} (h : ∀ n < 256, p (UInt8.ofNat n)) (byte : UInt8) :
    p byte := by
  have hbyte := h byte.toNat byte.toNat_lt
  rwa [UInt8.ofNat_toNat] at hbyte

theorem lowerByte_of_ge {byte : UInt8} (h : 128 ≤ byte) : lowerByte byte = byte := by
  have hbyte : ¬ (65 ≤ byte ∧ byte ≤ 90) := by
    simp only [UInt8.le_iff_toNat_le, UInt8.reduceToNat] at h ⊢
    omega
  simp [lowerByte, hbyte]

theorem toLower_of_ge {c : Char} (h : 128 ≤ c.toNat) : c.toLower = c := by
  have hupper : ¬ (c.val ≥ 'A'.val ∧ c.val ≤ 'Z'.val) := by
    rintro ⟨-, hle⟩
    have hle : c.toNat ≤ 90 := UInt32.le_iff_toNat_le.mp hle
    omega
  exact dif_neg hupper

/-- Every byte of a character beyond ASCII is beyond ASCII. -/
theorem ge_of_mem_utf8EncodeChar {c : Char} (h : 128 ≤ c.toNat) :
    ∀ byte ∈ String.utf8EncodeChar c, 128 ≤ byte := by
  have hv : ¬ c.val.toNat ≤ 127 := Nat.not_le.mpr h
  have hbyte : ∀ n, 128 ≤ n → n < 256 → 128 ≤ UInt8.ofNat n := by
    intro n hge hlt
    rw [UInt8.le_iff_toNat_le, UInt8.toNat_ofNat_of_lt' hlt]
    exact hge
  simp only [String.utf8EncodeChar, if_neg hv]
  split
  · simp only [List.mem_cons, List.not_mem_nil, or_false]
    rintro byte (rfl | rfl) <;> apply hbyte <;> omega
  · split
    · simp only [List.mem_cons, List.not_mem_nil, or_false]
      rintro byte (rfl | rfl | rfl) <;> apply hbyte <;> omega
    · simp only [List.mem_cons, List.not_mem_nil, or_false]
      rintro byte (rfl | rfl | rfl | rfl) <;> apply hbyte <;> omega

theorem utf8EncodeChar_toLower (c : Char) :
    String.utf8EncodeChar c.toLower = (String.utf8EncodeChar c).map lowerByte := by
  by_cases hc : c.toNat < 128
  · have hascii : ∀ n < 128, String.utf8EncodeChar (Char.ofNat n).toLower =
        (String.utf8EncodeChar (Char.ofNat n)).map lowerByte := by decide
    simpa using hascii c.toNat hc
  · have hc : 128 ≤ c.toNat := Nat.le_of_not_lt hc
    rw [toLower_of_ge hc]
    have hbytes : ∀ byte ∈ String.utf8EncodeChar c, lowerByte byte = id byte := fun byte hbyte =>
      lowerByte_of_ge (ge_of_mem_utf8EncodeChar hc byte hbyte)
    rw [List.map_congr_left hbytes, List.map_id]

theorem utf8_toLower (s : String) : Text.utf8 s.toLower = (Text.utf8 s).map lowerByte := by
  simp only [Text.utf8, Text.toList_toLower, List.flatMap_map, List.map_flatMap, utf8EncodeChar_toLower]

/-! ## Spelled bytes -/

/-- The number that a hexadecimal digit in lower case stands for. -/
def hexValue (c : Char) : Nat := if c.isDigit then c.toNat - '0'.toNat else c.toNat - 'a'.toNat + 10

/-- The byte that the characters spell. -/
def spelledByte : List Char → UInt8
  | ['_', high, low] => UInt8.ofNat (16 * hexValue high + hexValue low)
  | c :: _ => UInt8.ofNat c.toNat
  | [] => 0

theorem spelledByte_foldByte (byte : UInt8) : spelledByte (foldByte byte) = lowerByte byte := by
  refine forall_byte (p := fun byte => spelledByte (foldByte byte) = lowerByte byte) ?_ byte
  decide +kernel

theorem foldByte_lowerByte (byte : UInt8) : foldByte (lowerByte byte) = foldByte byte := by
  refine forall_byte (p := fun byte => foldByte (lowerByte byte) = foldByte byte) ?_ byte
  decide +kernel

/-- How a byte is spelled: by one character, or by two behind an underscore. -/
inductive Spelling : List Char → Prop
  | letter {c : Char} (h : c ≠ '_') : Spelling [c]
  | digits {high : Char} (low : Char) (h : high ≠ '_') : Spelling ['_', high, low]

theorem spelling_foldByte (byte : UInt8) : Spelling (foldByte byte) := by
  have hletter : ∀ n < 128, (Char.ofNat n).isAlphanum = true → (Char.ofNat n).toLower ≠ '_' := by
    decide
  have hdigit : ∀ n < 16, hexDigit n ≠ '_' := by decide
  have hbyte := byte.toNat_lt
  simp only [foldByte]
  split
  · rename_i h
    obtain ⟨hascii, halphanum⟩ := Bool.and_eq_true_iff.mp h
    have hlt : byte.toNat < 128 := by
      simpa [UInt8.lt_iff_toNat_lt] using hascii
    exact .letter (hletter byte.toNat hlt halphanum)
  · exact .digits _ (hdigit _ (by omega))

/-- What a byte is spelled as comes off the front of a text in one way. -/
theorem Spelling.append_inj {cs ds x y : List Char} (hcs : Spelling cs) (hds : Spelling ds)
    (h : cs ++ x = ds ++ y) : cs = ds ∧ x = y := by
  cases hcs with
  | letter hc =>
      cases hds with
      | letter hd => simpa using h
      | digits low hd => exact absurd (List.cons.inj h).1 hc
  | digits low hc =>
      cases hds with
      | letter hd => exact absurd (List.cons.inj h).1.symm hd
      | digits low' hd => simpa [and_assoc] using h

theorem foldByte_append_inj {a b : UInt8} {x y : List Char}
    (h : foldByte a ++ x = foldByte b ++ y) : lowerByte a = lowerByte b ∧ x = y := by
  obtain ⟨hbytes, hrest⟩ := (spelling_foldByte a).append_inj (spelling_foldByte b) h
  refine ⟨?_, hrest⟩
  rw [← spelledByte_foldByte, hbytes, spelledByte_foldByte]

/-! ## Spelled names -/

theorem toList_foldName (name : String) :
    (foldName name).toList = (Text.utf8 name).flatMap foldByte :=
  String.toList_ofList

/-- What ends a spelled name: nothing more, or two underscores. -/
inductive Ends : List Char → Prop
  | nothing : Ends []
  | underscores (rest : List Char) : Ends ('_' :: '_' :: rest)

theorem Spelling.not_ends {cs : List Char} (h : Spelling cs) (x : List Char) :
    ¬ Ends (cs ++ x) := by
  intro hends
  cases h with
  | letter hc =>
      cases hends
      exact hc rfl
  | digits low hc =>
      cases hends
      exact hc rfl

/-- Two spelled names are told apart before whatever ends them. -/
theorem flatMap_foldByte_append_inj {as bs : List UInt8} {x y : List Char} (hx : Ends x)
    (hy : Ends y) (h : as.flatMap foldByte ++ x = bs.flatMap foldByte ++ y) :
    as.map lowerByte = bs.map lowerByte ∧ x = y := by
  -- Byte by byte: no spelling of a byte is the beginning of another, or of what ends a name.
  induction as generalizing bs with
  | nil =>
      cases bs with
      | nil => exact ⟨rfl, h⟩
      | cons b bs =>
          rw [List.flatMap_nil, List.nil_append, List.flatMap_cons, List.append_assoc] at h
          rw [h] at hx
          exact absurd hx ((spelling_foldByte b).not_ends _)
  | cons a as ih =>
      rw [List.flatMap_cons, List.append_assoc] at h
      cases bs with
      | nil =>
          rw [List.flatMap_nil, List.nil_append] at h
          rw [← h] at hy
          exact absurd hy ((spelling_foldByte a).not_ends _)
      | cons b bs =>
          rw [List.flatMap_cons, List.append_assoc] at h
          obtain ⟨hbyte, hrest⟩ := foldByte_append_inj h
          obtain ⟨hbytes, hend⟩ := ih hrest
          exact ⟨by rw [List.map_cons, List.map_cons, hbyte, hbytes], hend⟩

theorem foldName_append_inj {a b : String} {x y : List Char} (hx : Ends x) (hy : Ends y)
    (h : (foldName a).toList ++ x = (foldName b).toList ++ y) : a.toLower = b.toLower ∧ x = y := by
  rw [toList_foldName, toList_foldName] at h
  obtain ⟨hbytes, hend⟩ := flatMap_foldByte_append_inj hx hy h
  refine ⟨Text.utf8_injective ?_, hend⟩
  rw [utf8_toLower, utf8_toLower, hbytes]

theorem foldName_toLower (name : String) : foldName name.toLower = foldName name := by
  apply String.toList_inj.mp
  rw [toList_foldName, toList_foldName, utf8_toLower, List.flatMap_map]
  simp only [foldByte_lowerByte]

theorem foldName_inj {a b : String} : foldName a = foldName b ↔ a.toLower = b.toLower := by
  constructor
  · intro h
    have hchars : (foldName a).toList ++ [] = (foldName b).toList ++ [] := by rw [h]
    exact (foldName_append_inj .nothing .nothing hchars).1
  · intro h
    rw [← foldName_toLower a, h, foldName_toLower]

/-! ## Flag names -/

namespace Scope

/-- The scope with its names in lower case, as far as they are ASCII. -/
def lower : Scope → Scope
  | everything => everything
  | entity name => entity name.toLower
  | element owner name => element owner.toLower name.toLower

/-- The flag's name behind the dot. -/
def stem : Scope → String
  | everything => "skip"
  | entity name => "skip_entity_" ++ foldName name
  | element owner name => "skip_element_" ++ foldName owner ++ "__" ++ foldName name

theorem flagName_eq (s : Scope) : s.flagName = "changelog." ++ s.stem := by
  cases s with
  | everything => rfl
  | entity name =>
      rw [stem, ← String.append_assoc]
      rfl
  | element owner name =>
      rw [stem, ← String.append_assoc, ← String.append_assoc, ← String.append_assoc]
      rfl

/-- Two parts with underscores between them are known from the whole. -/
theorem foldName_pair_inj {a b x y : String} :
    (foldName a).toList ++ '_' :: '_' :: (foldName x).toList =
        (foldName b).toList ++ '_' :: '_' :: (foldName y).toList ↔
      a.toLower = b.toLower ∧ x.toLower = y.toLower := by
  constructor
  · intro h
    obtain ⟨howner, hrest⟩ := foldName_append_inj (.underscores _) (.underscores _) h
    have hname : (foldName x).toList = (foldName y).toList := by simpa using hrest
    exact ⟨howner, foldName_inj.mp (String.toList_inj.mp hname)⟩
  · rintro ⟨howner, hname⟩
    rw [foldName_inj.mpr howner, foldName_inj.mpr hname]

theorem stem_inj {s t : Scope} : s.stem = t.stem ↔ s.lower = t.lower := by
  rw [← String.toList_inj]
  cases s <;> cases t <;> simp [stem, lower, foldName_pair_inj, String.toList_inj, foldName_inj]

/-- Flags share a name where their scopes are of one width and name the same but for the
letter case. -/
theorem flagName_inj {s t : Scope} : s.flagName = t.flagName ↔ s.lower = t.lower := by
  rw [flagName_eq, flagName_eq, String.append_right_inj, stem_inj]

end Scope

/-! ## Characters of flag names -/

/-- A lower-case ASCII letter, a digit or an underscore. -/
def isPlain (c : Char) : Bool := c.isLower || c.isDigit || c == '_'

theorem all_isPlain_foldByte (byte : UInt8) : (foldByte byte).all isPlain = true := by
  refine forall_byte (p := fun byte => (foldByte byte).all isPlain = true) ?_ byte
  decide +kernel

theorem all_isPlain_foldName (name : String) : (foldName name).toList.all isPlain = true := by
  rw [toList_foldName, List.all_flatMap, List.all_eq_true]
  exact fun byte _ => all_isPlain_foldByte byte

theorem Scope.all_isPlain_stem (s : Scope) : s.stem.toList.all isPlain = true := by
  cases s <;> simp only [stem, String.toList_append, List.all_append, all_isPlain_foldName,
    Bool.and_true] <;> decide

end ChangeTracking.Skip
