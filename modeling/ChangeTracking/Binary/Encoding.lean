import ChangeTracking.Text.Chars

/-!
# Binary encoding

A fixed-width little-endian encoding: lengths take eight bytes, positions of a choice
four, flags and option tags one.  Every encoding tells its own end, so the encoding of a
record is that of its fields one after another, and a reader takes what it needs from the
front of the bytes and leaves the rest.
-/

namespace ChangeTracking.Binary

/-! ## Writing -/

/-- The `width` lowest bytes of a number, lowest first. -/
def little : Nat → Nat → List UInt8
  | 0, _ => []
  | width + 1, n => UInt8.ofNat (n % 256) :: little width (n / 256)

def nat32 (n : Nat) : List UInt8 := little 4 n

def nat64 (n : Nat) : List UInt8 := little 8 n

def bool (b : Bool) : List UInt8 := [if b then 1 else 0]

def text (s : String) : List UInt8 :=
  let bytes := Text.utf8 s
  nat64 bytes.length ++ bytes

/-- A value that may be missing. -/
def option {α : Type} (encode : α → List UInt8) : Option α → List UInt8
  | none => [0]
  | some a => 1 :: encode a

def list {α : Type} (encode : α → List UInt8) (items : List α) : List UInt8 :=
  nat64 items.length ++ items.flatMap encode

def texts (items : List String) : List UInt8 := list text items

/-! ## Reading -/

/-- A reader of values from the front of bytes. -/
abbrev Reader (α : Type) := List UInt8 → Option (α × List UInt8)

/-- The number in the first `width` bytes, lowest first. -/
def readLittle : Nat → Reader Nat
  | 0, bytes => some (0, bytes)
  | _ + 1, [] => none
  | width + 1, byte :: bytes =>
      (readLittle width bytes).map fun (high, rest) => (byte.toNat + 256 * high, rest)

def readNat32 : Reader Nat := readLittle 4

def readNat64 : Reader Nat := readLittle 8

def readBytes : Nat → Reader (List UInt8)
  | 0, bytes => some ([], bytes)
  | _ + 1, [] => none
  | count + 1, byte :: bytes =>
      (readBytes count bytes).map fun (taken, rest) => (byte :: taken, rest)

def readText : Reader String := fun bytes => do
  let (length, bytes) ← readNat64 bytes
  if length ≤ bytes.length then
    let text ← Text.ofUtf8? (bytes.take length)
    return (text, bytes.drop length)
  else none

/-- `count` values. -/
def readMany {α : Type} (read : Reader α) : Nat → Reader (List α)
  | 0, bytes => some ([], bytes)
  | count + 1, bytes => do
      let (a, bytes) ← read bytes
      let (rest, bytes) ← readMany read count bytes
      return (a :: rest, bytes)

def readList {α : Type} (read : Reader α) : Reader (List α) := fun bytes => do
  let (count, bytes) ← readNat64 bytes
  readMany read count bytes

def readPair {α β : Type} (first : Reader α) (second : Reader β) : Reader (α × β) :=
  fun bytes => do
    let (a, bytes) ← first bytes
    let (b, bytes) ← second bytes
    return ((a, b), bytes)

end ChangeTracking.Binary
