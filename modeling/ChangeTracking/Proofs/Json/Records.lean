import ChangeTracking.Json.Record
import ChangeTracking.Proofs.NameMaps
import Mathlib.Data.List.TakeWhile

/-!
# Records read back

What is written as a JSON value is read back from it: plain values, lists of them, values that
may be missing, maps, and records, whose fields are looked up by their names.
-/

namespace ChangeTracking.Json

variable {α : Type} {read : Json → Option α} {write : α → Json}

/-- What is written is read back. -/
def ReadsBack (read : Json → Option α) (write : α → Json) : Prop := ∀ a, read (write a) = some a

/-! ## Values -/

theorem readsBack_bool : ReadsBack bool? bool := fun _ => rfl

theorem readsBack_text : ReadsBack text? text := fun _ => rfl

/-- A run of digits is read to its end. -/
theorem read?_of_isDigit {digits : List Char} (hne : digits ≠ [])
    (hdigits : ∀ c ∈ digits, c.isDigit = true) :
    Text.Decimal.read? digits.length digits = some (Text.Decimal.value digits, []) := by
  rw [Text.Decimal.read?, List.take_length, List.takeWhile_eq_self_iff.mpr hdigits]
  cases digits with
  | nil => exact absurd rfl hne
  | cons digit digits => simp

/-- The digits of a number spell it. -/
theorem digits?_toString (n : Nat) : digits? (toString n).toList = some n := by
  have hvalue : Text.Decimal.value (Nat.toDigits 10 n) = n := Nat.ofDigitChars_ten_toDigits
  rw [show (toString n).toList = Nat.toDigits 10 n by simp, digits?,
    read?_of_isDigit Nat.toDigits_ne_nil fun c hc =>
      Nat.isDigit_of_mem_toDigits (by decide) (by decide) hc]
  exact congrArg some hvalue

theorem readsBack_uint32 : ReadsBack uint32? fun n => nat n.toNat := by
  intro n
  change (natBelow? UInt32.size (.number (toString n.toNat))).map UInt32.ofNat = some n
  rw [natBelow?, digits?_toString, Option.bind_some, if_pos n.toNat_lt, Option.map_some,
    UInt32.ofNat_toNat]

theorem ReadsBack.list (h : ReadsBack read write) :
    ReadsBack (list? read) fun items => array (items.map write) := by
  intro items
  have hread : read ∘ write = pure := funext h
  rw [list?, List.mapM_map, hread, List.mapM_pure, List.map_id']
  rfl

theorem readsBack_texts : ReadsBack texts? texts := readsBack_text.list

/-- A value that is not written as `null` may be missing. -/
theorem ReadsBack.nullable (h : ReadsBack read write) (hnull : ∀ a, write a ≠ null) :
    ReadsBack (nullable? read) (ofOption write) := by
  intro o
  cases o with
  | none => rfl
  | some a => simp [ofOption, nullable?, h a, hnull a]

theorem ReadsBack.map (h : ReadsBack read write) :
    ReadsBack (map? read) fun m => record (m.entries.map fun e => (e.1, write e.2)) := by
  intro m
  have hmember : readMember? read ∘ (fun e : String × α => (some e.1, write e.2)) = pure := by
    funext e
    exact congrArg (Option.map fun a => (e.1, a)) (h e.2)
  have hmembers : (m.entries.map fun e => (some e.1, write e.2)).mapM (readMember? read) =
      some m.entries := by
    rw [List.mapM_map, hmember, List.mapM_pure, List.map_id']
    rfl
  simp only [record, map?, List.map_map, Function.comp_def, hmembers, Option.map_some,
    NameMap.ofList_entries]

/-! ## Records -/

/-- The declared members of a written record are all found. -/
theorem declaredMembers_record {declared : List String} {members found : List (String × Json)}
    (hdeclared : ∀ e ∈ members, e.1 ∈ declared)
    (hnodup : (members.map Prod.fst).Nodup)
    (hfresh : ∀ e ∈ members, found.lookup e.1 = none) :
    declaredMembers declared found (members.map fun e => (some e.1, e.2)) =
      some (members.reverse ++ found) := by
  -- Member by member: the names that are left are not among those found before.
  induction members generalizing found with
  | nil => rfl
  | cons e members ih =>
      obtain ⟨hhead, hdeclared⟩ := List.forall_mem_cons.mp hdeclared
      obtain ⟨hnew, hfresh⟩ := List.forall_mem_cons.mp hfresh
      obtain ⟨hother, hnodup⟩ := List.nodup_cons.mp hnodup
      rw [List.map_cons, declaredMembers, if_pos (List.contains_iff_mem.mpr hhead), hnew,
        Option.isSome_none, if_neg Bool.false_ne_true, ih hdeclared hnodup]
      · simp
      · intro e' he'
        have hne : e'.1 ≠ e.1 := by
          intro heq
          exact hother (heq ▸ List.mem_map_of_mem he')
        rw [lookup_entry, if_neg hne]
        exact hfresh e' he'

/-- The fields of a record as they are found in its members. -/
def writtenFields (members : List (String × Json)) : Fields := ⟨false, members.reverse⟩

theorem fields?_record {declared : List String} {members : List (String × Json)}
    (hnames : members.map Prod.fst = declared) (hnodup : declared.Nodup) :
    (record members).fields? declared = some (writtenFields members) := by
  subst hnames
  rw [record, fields?, declaredMembers_record (fun e he => List.mem_map_of_mem he) hnodup
    (fun _ _ => rfl), List.append_nil, Option.map_some, writtenFields]

end ChangeTracking.Json
