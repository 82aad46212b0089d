import ChangeTracking.Proofs.Sql.Terms

/-!
# What keys and phrases say

Keys and phrases are joined once on values and once in SQL.  A key has separators between
its parts; in a phrase every part brings its separator, an empty part brings nothing, and
the first separator is cut off.
-/

namespace ChangeTracking.Sql

open Engine

namespace Term

variable {quoted : Bool} {sees : Environment → Prop}

/-! ## Keys -/

/-- The texts of a key with separators between them. -/
def keyTexts : List (Option String) → List (Option String)
  | [] => []
  | [x] => [x]
  | x :: xs => x :: some Plan.keySeparator :: keyTexts xs

theorem joinKey_cons_cons (x y : Option String) (xs : List (Option String)) :
    Plan.joinKey (x :: y :: xs) =
      x.bind fun value => (Plan.joinKey (y :: xs)).map fun key =>
        value ++ (Plan.keySeparator ++ key) := by
  cases x with
  | none => rfl
  | some value =>
      cases y with
      | none => rfl
      | some other =>
          cases hxs : xs.mapM id with
          | none => simp [Plan.joinKey, hxs]
          | some values => simp [Plan.joinKey, hxs, String.append_assoc]

theorem joinKey_eq (xs : List (Option String)) :
    ((keyTexts xs).mapM id).map String.join = Plan.joinKey xs := by
  induction xs with
  | nil => rfl
  | cons x xs ih =>
      cases xs with
      | nil => cases x <;> simp [keyTexts, Plan.joinKey]
      | cons y xs =>
          have htexts : keyTexts (x :: y :: xs) =
              x :: some Plan.keySeparator :: keyTexts (y :: xs) := rfl
          rw [joinKey_cons_cons, ← ih, htexts]
          cases x with
          | none => rfl
          | some value => cases h : (keyTexts (y :: xs)).mapM id <;> simp [h]

theorem says_keyParts {ts : List Term} {xs : List (Option String)}
    (h : List.Forall₂ (Says quoted sees) ts xs) :
    List.Forall₂ (Says quoted sees) (keyParts ts) (keyTexts xs) := by
  induction h with
  | nil => exact .nil
  | @cons t x ts xs hfirst hrest ih =>
      cases hrest with
      | nil => exact .cons hfirst .nil
      | cons hsecond hrest => exact .cons hfirst (.cons (says_literal _) ih)

/-- A key in SQL is the key of the values. -/
theorem says_keyJoin {ts : List Term} {xs : List (Option String)}
    (h : List.Forall₂ (Says quoted sees) ts xs) (hne : ts ≠ []) :
    Says quoted sees (.concat (keyParts ts)) (Plan.joinKey xs) := by
  have hparts : keyParts ts ≠ [] := by
    match ts with
    | [] => exact absurd rfl hne
    | [_] => exact List.cons_ne_nil _ _
    | _ :: _ :: _ => exact List.cons_ne_nil _ _
  rw [← joinKey_eq]
  exact says_concat (says_keyParts h) hparts

/-! ## Phrases -/

/-- What a part brings to a phrase. -/
def phrasePiece (x : Option String) : String :=
  match x.filter fun value => !value.isEmpty with
  | none => ""
  | some value => Plan.listSeparator ++ value

theorem says_phrasePart {t : Term} {x : Option String} (h : Says quoted sees t x) :
    Says quoted sees (phrasePart t) (some (phrasePiece x)) := by
  have hconcat := says_concat
    (.cons (says_literal Plan.listSeparator) (.cons (says_nullIfEmpty h) .nil))
    (List.cons_ne_nil _ _)
  have hcoalesce := says_coalesce (.cons hconcat (.cons (says_literal "") .nil)) (Nat.le_refl 2)
  have hpiece : [(([some Plan.listSeparator, x.filter fun value => !value.isEmpty].mapM id).map
      String.join), some ""].findSome? id = some (phrasePiece x) := by
    -- The separator alone would remain, but a missing part makes the concatenation missing.
    unfold phrasePiece
    cases x.filter fun value => !value.isEmpty <;> simp
  rw [← hpiece]
  exact hcoalesce

theorem says_phraseParts {ts : List Term} {xs : List (Option String)}
    (h : List.Forall₂ (Says quoted sees) ts xs) :
    List.Forall₂ (Says quoted sees) (ts.map phrasePart) (xs.map (some ∘ phrasePiece)) := by
  induction h with
  | nil => exact .nil
  | cons hfirst hrest ih => exact .cons (says_phrasePart hfirst) ih

theorem join_phrasePieces (xs : List (Option String)) :
    String.join (xs.map phrasePiece) =
      String.join ((Plan.phraseParts xs).map (Plan.listSeparator ++ ·)) := by
  induction xs with
  | nil => rfl
  | cons x xs ih =>
      have hparts : Plan.phraseParts (x :: xs) =
          (x.filter fun value => !value.isEmpty).toList ++ Plan.phraseParts xs := by
        rw [Plan.phraseParts, List.filterMap_cons]
        cases x.filter fun value => !value.isEmpty <;> rfl
      rw [List.map_cons, String.join_cons, ih, hparts, phrasePiece]
      cases x.filter fun value => !value.isEmpty <;> simp

theorem intercalate_cons (separator value : String) (values : List String) :
    separator.intercalate (value :: values) = value ++ String.join (values.map (separator ++ ·)) := by
  induction values generalizing value with
  | nil => simp
  | cons other values ih =>
      rw [String.intercalate_cons_cons, ih, List.map_cons, String.join_cons,
        String.append_assoc, String.append_assoc]

/-- Cutting starts behind the characters that are left out. -/
theorem cut_append (front back : String) : cut (front ++ back) (front.length + 1) none = back := by
  have hdrop : (front.toList ++ back.toList).drop front.length = back.toList := by
    rw [← String.length_toList, List.drop_left]
  rw [cut, String.toList_append, Nat.add_sub_cancel, hdrop, String.ofList_toList]

/-- Cutting the first separator off leaves the phrase of the values. -/
theorem joinNonEmpty_eq (xs : List (Option String)) :
    (some (cut (String.join (xs.map phrasePiece)) (Plan.listSeparator.length + 1) none)).filter
      (fun value => !value.isEmpty) = Plan.joinNonEmpty xs := by
  rw [join_phrasePieces, Plan.joinNonEmpty]
  cases hparts : Plan.phraseParts xs with
  | nil => rfl
  | cons value values =>
      -- Only parts with characters are joined, so nothing is filtered out once more.
      have hvalue : value ≠ "" :=
        Plan.ne_empty_of_mem_phraseParts (hparts ▸ List.mem_cons_self)
      have hcut : cut (String.join ((value :: values).map (Plan.listSeparator ++ ·)))
          (Plan.listSeparator.length + 1) none = Plan.listSeparator.intercalate (value :: values) := by
        rw [List.map_cons, String.join_cons, String.append_assoc, cut_append, intercalate_cons]
      have hne : Plan.listSeparator.intercalate (value :: values) ≠ "" := by
        rw [intercalate_cons]
        simp [hvalue]
      rw [hcut]
      simp [hne]

/-- A phrase in SQL is the phrase of the values. -/
theorem says_phrase {ts : List Term} {xs : List (Option String)}
    (h : List.Forall₂ (Says quoted sees) ts xs) (hne : ts ≠ []) :
    Says quoted sees (phrase ts) (Plan.joinNonEmpty xs) := by
  by_cases hsingle : ts.length = 1
  · obtain ⟨t, rfl⟩ := List.length_eq_one_iff.mp hsingle
    obtain ⟨x, rfl⟩ := List.length_eq_one_iff.mp (h.length_eq ▸ hsingle)
    obtain ⟨hfirst, -⟩ := List.forall₂_cons.mp h
    have hphrase : Plan.joinNonEmpty [x] = x.filter fun value => !value.isEmpty := by
      rw [Plan.joinNonEmpty, Plan.phraseParts, List.filterMap_cons, List.filterMap_nil]
      cases x.filter fun value => !value.isEmpty <;> simp
    rw [hphrase]
    exact says_nullIfEmpty hfirst
  · have hconcat := says_concat (says_phraseParts h) (by simpa using hne)
    -- A missing part contributes the empty text, so the concatenation is never missing.
    have hpieces : ((xs.map (some ∘ phrasePiece)).mapM id).map String.join =
        some (String.join (xs.map phrasePiece)) := by
      have hmapM : (xs.map (some ∘ phrasePiece)).mapM id = some (xs.map phrasePiece) := by
        rw [List.mapM_map]
        exact List.mapM_pure
      rw [hmapM, Option.map_some]
    rw [hpieces] at hconcat
    have hphrase : phrase ts = .nullIfEmpty (.substring (.concat (ts.map phrasePart))
        (Plan.listSeparator.length + 1) none) := by
      unfold phrase
      split
      · exact absurd rfl hsingle
      · rfl
    rw [hphrase, ← joinNonEmpty_eq]
    exact says_nullIfEmpty (says_substring hconcat _ _)

end Term

end ChangeTracking.Sql
