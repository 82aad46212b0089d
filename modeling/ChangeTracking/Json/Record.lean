import ChangeTracking.Json.Value
import ChangeTracking.NameMap
import ChangeTracking.Text.Chars

/-!
# Reading records from JSON values

A record with declared fields may be written as an object, where unknown members are
skipped and a declared one must not occur twice, or as an array of its fields in
declared order, which must not be longer than the declaration.
-/

namespace ChangeTracking.Json

/-- The fields of a record that were present. -/
structure Fields where
  /-- Written as an array. -/
  positional : Bool
  present : List (String × Json)

/-- Collect the declared members of an object, given those already found. -/
def declaredMembers (declared : List String) (found : List (String × Json)) :
    List (Option String × Json) → Option (List (String × Json))
  | [] => some found
  | (none, _) :: _ => none
  | (some key, value) :: members =>
      if declared.contains key then
        if (found.lookup key).isSome then none
        else declaredMembers declared ((key, value) :: found) members
      else declaredMembers declared found members

/-- The fields of a record with these declared names. -/
def fields? (declared : List String) : Json → Option Fields
  | .object members => (declaredMembers declared [] members).map (⟨false, ·⟩)
  | .array items =>
      if items.length ≤ declared.length then some ⟨true, declared.zip items⟩ else none
  | _ => none

/-- A field that must be there. -/
def Fields.required {α : Type} (fields : Fields) (name : String) (read : Json → Option α) :
    Option α :=
  (fields.present.lookup name).bind read

/-- A field that has a value when it is not there. -/
def Fields.defaulted {α : Type} (fields : Fields) (name : String) (default : α)
    (read : Json → Option α) : Option α :=
  match fields.present.lookup name with
  | none => some default
  | some value => read value

/-- Read a value that may be `null`. -/
def nullable? {α : Type} (read : Json → Option α) : Json → Option (Option α)
  | .null => some none
  | value => (read value).map some

/-- A field that may be `null`, and may be left out of an object. -/
def Fields.optional {α : Type} (fields : Fields) (name : String) (read : Json → Option α) :
    Option (Option α) :=
  match fields.present.lookup name with
  | none => if fields.positional then none else some none
  | some value => nullable? read value

def bool? : Json → Option Bool
  | .bool value => some value
  | _ => none

def text? : Json → Option String
  | .string text => text
  | _ => none

def list? {α : Type} (read : Json → Option α) : Json → Option (List α)
  | .array items => items.mapM read
  | _ => none

def texts? : Json → Option (List String) := list? text?

/-- The number spelled by decimal digits only. -/
def digits? (spelling : List Char) : Option Nat :=
  match Text.Decimal.read? spelling.length spelling with
  | some (n, []) => some n
  | _ => none

/-- A number without sign, fraction and exponent, below a bound. -/
def natBelow? (bound : Nat) : Json → Option Nat
  | .number spelling =>
      (digits? spelling.toList).bind fun n => if n < bound then some n else none
  | _ => none

def uint32? (value : Json) : Option UInt32 :=
  (natBelow? UInt32.size value).map UInt32.ofNat

/-- A named member of an object. -/
def readMember? {α : Type} (read : Json → Option α) :
    Option String × Json → Option (String × α)
  | (some name, value) => (read value).map fun a => (name, a)
  | (none, _) => none

/-- An object as a map; of several members under one name the last one stays. -/
def map? {α : Type} (read : Json → Option α) : Json → Option (NameMap α)
  | .object members =>
      (members.mapM (readMember? read)).map NameMap.ofList
  | _ => none

/-- One of several names, alone or as the only member of an object with the value `null`. -/
def choice? {α : Type} (names : List (String × α)) : Json → Option α
  | .string (some name) => names.lookup name
  | .object [(some name, .null)] => names.lookup name
  | _ => none

end ChangeTracking.Json
