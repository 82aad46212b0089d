import ChangeTracking.Fault

/-!
# Skip scopes

A writer that records a change itself suppresses the trigger's record by setting a flag
in the session.  A flag covers everything, one entity, or one attribute of one entity;
its name spells the scope so that different scopes never share a flag.
-/

namespace ChangeTracking.Skip

/-- What a skip flag suppresses. -/
inductive Scope
  | everything
  | entity (name : String)
  | element (owner name : String)
  deriving DecidableEq, Repr

/-- A hexadecimal digit below sixteen, in lower case. -/
def hexDigit (n : Nat) : Char := Nat.digitChar n

/-- A byte of a scope name: ASCII letters and digits in lower case, all else in hex. -/
def foldByte (byte : UInt8) : List Char :=
  let c := Char.ofNat byte.toNat
  if byte < 128 && c.isAlphanum then [c.toLower]
  else ['_', hexDigit (byte.toNat / 16), hexDigit (byte.toNat % 16)]

/-- A scope name as a part of a flag name; two underscores in a row never occur in it. -/
def foldName (name : String) : String :=
  String.ofList ((name.toList.flatMap String.utf8EncodeChar).flatMap foldByte)

namespace Scope

/-- The flag's name in the session. -/
def flagName : Scope → String
  | everything => "changelog.skip"
  | entity name => "changelog.skip_entity_" ++ foldName name
  | element owner name =>
      "changelog.skip_element_" ++ foldName owner ++ "__" ++ foldName name

/-- The narrowest scope that the given names describe. -/
def ofNames : Option String → Option String → Except Fault Scope
  | none, none => .ok .everything
  | some owner, none => .ok (.entity owner)
  | some owner, some name => .ok (.element owner name)
  | none, some name =>
      .error (.invalidInput "skip scope" name "attribute flag requires an entity")

/-- The order in which scopes are listed: by width, then by names. -/
def before : Scope → Scope → Bool
  | everything, everything => false
  | everything, _ => true
  | entity _, everything => false
  | entity a, entity b => a < b
  | entity _, element .. => true
  | element a x, element b y => a < b || (a == b && x < y)
  | element .., _ => false

end Scope

/-- Add a scope to an ordered list without repetition. -/
def insertScope (scope : Scope) : List Scope → List Scope
  | [] => [scope]
  | other :: rest =>
      if scope.before other then scope :: other :: rest
      else if scope = other then other :: rest
      else other :: insertScope scope rest

theorem mem_insertScope {scope other : Scope} {scopes : List Scope} :
    other ∈ insertScope scope scopes ↔ other = scope ∨ other ∈ scopes := by
  induction scopes with
  | nil => simp [insertScope]
  | cons head rest ih =>
      simp only [insertScope]
      split
      · simp
      · split
        · rename_i h
          subst h
          simp
        · simp only [List.mem_cons, ih]
          constructor
          · rintro (h | h | h) <;> simp [h]
          · rintro (h | h | h) <;> simp [h]

end ChangeTracking.Skip
