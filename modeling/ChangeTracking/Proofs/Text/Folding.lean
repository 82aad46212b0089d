import ChangeTracking.Proofs.Schema.Names
import ChangeTracking.Sql.Dialect
import Mathlib.Data.List.Basic

/-!
# Letter case of names

On ASCII characters letter case is changed one character at a time.  So folding a name of a
model folds each of its characters, and folds a name put together from parts by its parts.
-/

namespace ChangeTracking

namespace Text

/-- All characters of the text are ASCII. -/
def IsAscii (s : String) : Prop := ∀ c ∈ s.toList, c.toNat < 128

-- Over the list, not over all characters there are.
instance (s : String) : Decidable (IsAscii s) := List.decidableBAll _ s.toList

theorem IsAscii.append {s t : String} (hs : IsAscii s) (ht : IsAscii t) : IsAscii (s ++ t) := by
  intro c hc
  rw [String.toList_append, List.mem_append] at hc
  exact hc.elim (hs c) (ht c)

theorem isAscii_of_isName {s : String} (h : Naming.IsName s) : IsAscii s :=
  fun c hc => Naming.lt_of_isNameChar (h.chars c hc)

theorem IsAscii.replaceChar {s : String} (hs : IsAscii s) (c : Char) {replacement : String}
    (hreplacement : IsAscii replacement) : IsAscii (replaceChar c replacement s) := by
  intro d hd
  rw [Text.replaceChar, toList_expand, List.mem_flatMap] at hd
  obtain ⟨d', hd', hd⟩ := hd
  split at hd
  · exact hreplacement d hd
  · rw [List.mem_singleton.mp hd]
    exact hs d' hd'

theorem toList_upperCase {s : String} (h : IsAscii s) :
    (upperCase s).toList = s.toList.map Char.toUpper := by
  have hchar : ∀ c ∈ s.toList, LetterCase.upperChar c = [c.toUpper] := fun c hc =>
    if_pos (h c hc)
  rw [upperCase, String.toList_ofList, List.map_eq_flatMap]
  exact List.flatMap_congr hchar

theorem lowerFrom_eq_map {before cs : List Char} (h : ∀ c ∈ cs, c.toNat < 128) :
    LetterCase.lowerFrom before cs = cs.map Char.toLower := by
  induction cs generalizing before with
  | nil => rfl
  | cons c cs ih =>
      obtain ⟨hc, hcs⟩ := List.forall_mem_cons.mp h
      have hsigma : c ≠ 'Σ' := by
        rintro rfl
        exact absurd hc (by decide)
      rw [LetterCase.lowerFrom, if_neg hsigma, LetterCase.lowerChar, if_pos hc, ih hcs]
      rfl

theorem toList_lowerCase {s : String} (h : IsAscii s) :
    (lowerCase s).toList = s.toList.map Char.toLower := by
  rw [lowerCase, String.toList_ofList, lowerFrom_eq_map h]

/-- What holds of all ASCII characters one by one holds of an ASCII character. -/
theorem forall_ascii {p : Char → Prop} (h : ∀ n < 128, p (Char.ofNat n)) {c : Char}
    (hc : c.toNat < 128) : p c := by
  have hchar := h c.toNat hc
  rwa [Char.ofNat_toNat] at hchar

end Text

namespace Sql.Dialect

/-- The letter case that a backend gives to the characters of names. -/
def letterCase : Backend → Char → Char
  | .postgres => Char.toLower
  | .sqlite | .hana | .h2 => Char.toUpper

variable (backend : Backend) (quoted : Bool)

theorem toList_fold {s : String} (h : Text.IsAscii s) :
    ((Dialect.of backend quoted).fold s).toList = s.toList.map (letterCase backend) := by
  cases backend with
  | postgres => exact Text.toList_lowerCase h
  | sqlite => exact Text.toList_upperCase h
  | hana => exact Text.toList_upperCase h
  | h2 => exact Text.toList_upperCase h

theorem fold_append {s t : String} (hs : Text.IsAscii s) (ht : Text.IsAscii t) :
    (Dialect.of backend quoted).fold (s ++ t) =
      (Dialect.of backend quoted).fold s ++ (Dialect.of backend quoted).fold t := by
  rw [← String.toList_inj, String.toList_append, toList_fold _ _ (hs.append ht), toList_fold _ _ hs,
    toList_fold _ _ ht, String.toList_append, List.map_append]

/-- Folding loses letter case alone. -/
theorem toLower_letterCase {c : Char} (hc : c.toNat < 128) :
    (letterCase backend c).toLower = c.toLower := by
  refine Text.forall_ascii (p := fun c => (letterCase backend c).toLower = c.toLower) ?_ hc
  cases backend <;> decide +kernel

theorem letterCase_toLower {c : Char} (hc : c.toNat < 128) :
    letterCase backend c.toLower = letterCase backend c := by
  refine Text.forall_ascii (p := fun c => letterCase backend c.toLower = letterCase backend c) ?_ hc
  cases backend <;> decide +kernel

/-- Names are folded alike if they differ in letter case at most. -/
theorem fold_eq_iff {s t : String} (hs : Text.IsAscii s) (ht : Text.IsAscii t) :
    (Dialect.of backend quoted).fold s = (Dialect.of backend quoted).fold t ↔
      s.toLower = t.toLower := by
  have hlower {s : String} (hs : Text.IsAscii s) : s.toLower.toList =
      ((Dialect.of backend quoted).fold s).toList.map Char.toLower := by
    rw [toList_fold _ _ hs, Text.toList_toLower, List.map_map]
    exact List.map_congr_left fun c hc => (toLower_letterCase backend (hs c hc)).symm
  have hfold {s : String} (hs : Text.IsAscii s) : ((Dialect.of backend quoted).fold s).toList =
      s.toLower.toList.map (letterCase backend) := by
    rw [toList_fold _ _ hs, Text.toList_toLower, List.map_map]
    exact List.map_congr_left fun c hc => (letterCase_toLower backend (hs c hc)).symm
  constructor
  · intro h
    rw [← String.toList_inj, hlower hs, hlower ht, h]
  · intro h
    rw [← String.toList_inj, hfold hs, hfold ht, h]

end Sql.Dialect

end ChangeTracking
