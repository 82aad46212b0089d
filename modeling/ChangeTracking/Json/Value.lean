/-!
# JSON values

A JSON document as written: objects keep the order and the repetitions of their
members, numbers keep their spelling, and a text is missing when one of its escapes
names half of a surrogate pair, since no character is meant by it.
-/

namespace ChangeTracking

/-- A JSON document. -/
inductive Json
  | null
  | bool (value : Bool)
  | number (spelling : String)
  | string (text : Option String)
  | array (items : List Json)
  | object (members : List (Option String × Json))
  deriving Inhabited, Repr

namespace Json

/-- A JSON string of the text. -/
def text (s : String) : Json := .string (some s)

def nat (n : Nat) : Json := .number (toString n)

def texts (items : List String) : Json := .array (items.map text)

/-- `null` for nothing. -/
def ofOption {α : Type} (f : α → Json) : Option α → Json
  | none => .null
  | some a => f a

/-- A JSON object with the given members. -/
def record (members : List (String × Json)) : Json :=
  .object (members.map fun m => (some m.1, m.2))

/-! ### Writing

The compact form: no blanks, only the escapes that JSON demands. -/

/-- A hexadecimal digit below sixteen, in lower case. -/
def hexChar (n : Nat) : Char :=
  Nat.digitChar n

/-- The spelling of one character inside a JSON string. -/
def escape (c : Char) : List Char :=
  if c = '"' then ['\\', '"']
  else if c = '\\' then ['\\', '\\']
  else if c = '\n' then ['\\', 'n']
  else if c = '\r' then ['\\', 'r']
  else if c = '\t' then ['\\', 't']
  else if c = '\x08' then ['\\', 'b']
  else if c = '\x0c' then ['\\', 'f']
  else if c.toNat < 0x20 then
    ['\\', 'u', '0', '0', hexChar (c.toNat / 16), hexChar (c.toNat % 16)]
  else [c]

def writeText (s : String) : String :=
  String.ofList ('"' :: s.toList.flatMap escape ++ ['"'])

mutual

/-- The compact text of a document. -/
def write : Json → String
  | .null => "null"
  | .bool true => "true"
  | .bool false => "false"
  | .number spelling => spelling
  | .string text => writeText (text.getD "")
  | .array items => "[" ++ ",".intercalate (writeItems items) ++ "]"
  | .object members => "\x7b" ++ ",".intercalate (writeMembers members) ++ "\x7d"

/-- The texts of the items of an array. -/
def writeItems : List Json → List String
  | [] => []
  | item :: items => write item :: writeItems items

/-- The texts of the members of an object. -/
def writeMembers : List (Option String × Json) → List String
  | [] => []
  | (key, value) :: members =>
      (writeText (key.getD "") ++ ":" ++ write value) :: writeMembers members

end

end Json

end ChangeTracking
