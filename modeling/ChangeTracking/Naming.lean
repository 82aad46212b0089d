import ChangeTracking.Fault
import ChangeTracking.Text.Chars

/-!
# Names

The only names that reach generated text unquoted by a check: identifiers, dotted
names of identifiers, and directive paths, which are dotted names of bounded depth.
A refused name is quoted in the fault in shortened, printable form.
-/

namespace ChangeTracking.Naming

/-- Association hops that one directive path may take. -/
def maxHops : Nat := 8

/-- The longest identifier in bytes. -/
def maxIdentifierBytes : Nat := 127

/-- Characters of a refused name that are quoted in a fault. -/
def excerptLength : Nat := 50

/-- The character may begin an identifier. -/
def isInitial (c : Char) : Bool :=
  c.isAlpha || c == '_'

/-- The character may continue an identifier. -/
def isInner (c : Char) : Bool :=
  c.isAlphanum || c == '_' || c == '$'

/-- The characters form an identifier of some length. -/
def hasIdentifierShape : List Char → Bool
  | [] => false
  | c :: cs => isInitial c && cs.all isInner

/-- A control character that would break a log line, written as an escape. -/
def printable : Char → List Char
  | '\x00' => ['\\', '0']
  | '\n' => ['\\', 'n']
  | '\r' => ['\\', 'r']
  | c => [c]

/-- The beginning of `s` in printable form. -/
def excerpt (s : String) : String :=
  Text.expand printable
    (if s.length > excerptLength then
      String.ofList (s.toList.take excerptLength) ++ "..."
    else s)

/-- Accept an identifier for the parameter. -/
def checkIdentifier (parameter s : String) : Except Fault Unit :=
  if s.isEmpty then
    .error (.invalidInput parameter s "Identifier cannot be empty")
  else if s.utf8ByteSize > maxIdentifierBytes then
    .error (.invalidInput parameter
      (excerpt s ++ "... (" ++ toString s.utf8ByteSize ++ " chars)")
      "Identifier too long (max 127 characters)")
  else if hasIdentifierShape s.toList then
    .ok ()
  else
    .error (.invalidInput parameter (excerpt s)
      ("Identifier must start with a letter or underscore and contain only "
        ++ "alphanumeric characters, underscores and '$'"))

def isIdentifier (s : String) : Bool :=
  (checkIdentifier "" s).isOk

/-- Accept a dotted name of identifiers for the parameter. -/
def checkName (parameter s : String) : Except Fault Unit :=
  if s.isEmpty then
    .error (.invalidInput parameter "" "Name cannot be empty")
  else
    match (Text.segments '.' s).find? (fun part => !isIdentifier part) with
    | none => .ok ()
    | some part =>
        .error (.invalidInput parameter (excerpt s)
          ("Segment '" ++ excerpt part ++ "' is not a valid identifier"))

/-- Accept a directive path for the parameter. -/
def checkPath (parameter s : String) : Except Fault Unit := do
  checkName parameter s
  let depth := (Text.segments '.' s).length
  if depth > maxHops + 1 then
    .error (.invalidInput parameter (excerpt s)
      ("Path too deep (" ++ toString depth ++ " segments, max "
        ++ toString (maxHops + 1) ++ ")"))

end ChangeTracking.Naming
