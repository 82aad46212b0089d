import ChangeTracking.Binary.Encoding

/-!
# Gzip members

A member without optional header fields whose data stands in stored blocks, followed by
the checksum and the length of the data.
-/

namespace ChangeTracking.Binary

/-! ## Checksum -/

namespace Crc32

/-- One bit out of the remainder. -/
def shift (c : UInt32) : UInt32 :=
  if c &&& 1 = 1 then (c >>> 1) ^^^ 0xEDB88320 else c >>> 1

def step (c : UInt32) (byte : UInt8) : UInt32 :=
  Nat.repeat shift 8 (c ^^^ byte.toUInt32)

def checksum (bytes : List UInt8) : UInt32 := ~~~(bytes.foldl step 0xFFFFFFFF)

end Crc32

namespace Gzip

/-- The two bytes by which a member is known. -/
def magic : List UInt8 := [0x1f, 0x8b]

/-- The ten bytes in front of the blocks. -/
def header : List UInt8 := magic ++ [8, 0, 0, 0, 0, 0, 0, 0xff]

def maxBlock : Nat := 65535

/-- The checksum and the length of the data. -/
def trailer (data : List UInt8) : List UInt8 :=
  nat32 (Crc32.checksum data).toNat ++ nat32 data.length

/-! ## Writing -/

def block (isLast : Bool) (data : List UInt8) : List UInt8 :=
  bool isLast ++ little 2 data.length ++ little 2 (maxBlock - data.length) ++ data

def blocks (data : List UInt8) : List UInt8 :=
  if data.length ≤ maxBlock then block true data
  else block false (data.take maxBlock) ++ blocks (data.drop maxBlock)
termination_by data.length
decreasing_by simp [maxBlock] at *; omega

/-- The member that holds the data. -/
def compress (data : List UInt8) : List UInt8 := header ++ blocks data ++ trailer data

/-! ## Reading -/

/-- A stored block, and whether it is the last one. -/
def readBlock : Reader (Bool × List UInt8) := fun bytes => do
  let (mark, bytes) ← readLittle 1 bytes
  let (length, bytes) ← readLittle 2 bytes
  let (complement, bytes) ← readLittle 2 bytes
  let (data, bytes) ← readBytes length bytes
  if mark < 2 && length + complement = maxBlock then return ((mark = 1, data), bytes) else none

/-- The data in stored blocks, of which there are at most `limit`. -/
def readBlocks : Nat → Reader (List UInt8)
  | 0, _ => none
  | limit + 1, bytes => do
      let ((isLast, data), bytes) ← readBlock bytes
      if isLast then return (data, bytes)
      else
        let (rest, bytes) ← readBlocks limit bytes
        return (data ++ rest, bytes)

/-- The data that a member holds. -/
def expand? (bytes : List UInt8) : Option (List UInt8) := do
  if bytes.take header.length ≠ header then none
  let (data, rest) ← readBlocks bytes.length (bytes.drop header.length)
  if rest.take 8 = trailer data then return data else none

end Gzip

end ChangeTracking.Binary
