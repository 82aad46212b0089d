import ChangeTracking.Text.Chars
import ChangeTracking.Time.Date

/-!
# Instants

A point in time in UTC with nanoseconds, and its RFC 3339 timestamp.  Writing has one
form.  Reading is lenient: numbers may be short, blanks may stand in front of numbers,
separators and the offset, a year with a sign may have any number of digits, and the
offset may be spelled `UTC`.
-/

namespace ChangeTracking.Time

open Text (skipBlanks)
open Text.Decimal (padded)

/-- A point in time in UTC. -/
structure Instant where
  date : Date
  /-- Minutes since midnight. -/
  minute : Nat
  /-- Seconds of the minute; a leap second is the sixtieth. -/
  second : Nat
  nanosecond : Nat
  deriving DecidableEq, Repr

namespace Instant

/-- The instant that a clock shows `date` and `minute` at, when the clock is `offset`
minutes ahead of UTC. -/
def ofLocal? (date : Date) (minute second nanosecond : Nat) (offset : Int) : Option Instant :=
  let shifted := (minute : Int) - offset
  let date :=
    if shifted < 0 then date.previous
    else if shifted < 1440 then date
    else date.next
  if date.isValid then some ⟨date, (shifted % 1440).toNat, second, nanosecond⟩ else none

/-! ## Writing -/

/-- A year: four digits, with a sign when that is not enough. -/
def yearText (year : Int) : String :=
  if 0 ≤ year ∧ year ≤ 9999 then padded 4 year.toNat
  else (if year < 0 then "-" else "+") ++ padded 4 year.natAbs

/-- The fraction of a second in the fewest groups of three digits that are exact. -/
def fractionText (nanosecond : Nat) : String :=
  if nanosecond = 0 then ""
  else if nanosecond % 1000000 = 0 then "." ++ padded 3 (nanosecond / 1000000)
  else if nanosecond % 1000 = 0 then "." ++ padded 6 (nanosecond / 1000)
  else "." ++ padded 9 nanosecond

def text (i : Instant) : String :=
  yearText i.date.year ++ "-" ++ padded 2 i.date.month ++ "-" ++ padded 2 i.date.day ++ "T"
    ++ padded 2 (i.minute / 60) ++ ":" ++ padded 2 (i.minute % 60) ++ ":"
    ++ padded 2 i.second ++ fractionText i.nanosecond ++ "Z"

/-! ## Reading -/

/-- A number of at most two digits, up to a bound. -/
def readPart? (bound : Nat) (cs : List Char) : Option (Nat × List Char) := do
  let (n, rest) ← Text.Decimal.read? 2 (skipBlanks cs)
  if n ≤ bound then return (n, rest) else none

def afterMark? (mark : Char) (cs : List Char) : Option (List Char) :=
  match skipBlanks cs with
  | c :: rest => if c = mark then some rest else none
  | [] => none

def readYear? (cs : List Char) : Option (Int × List Char) :=
  match skipBlanks cs with
  | '-' :: rest => (Text.Decimal.read? rest.length rest).map fun (n, rest) => (-(n : Int), rest)
  | '+' :: rest => (Text.Decimal.read? rest.length rest).map fun (n, rest) => ((n : Int), rest)
  | rest => (Text.Decimal.read? 4 rest).map fun (n, rest) => ((n : Int), rest)

def readDate? (cs : List Char) : Option (Date × List Char) := do
  let (year, cs) ← readYear? cs
  let (month, cs) ← readPart? 12 (← afterMark? '-' cs)
  let (day, cs) ← readPart? 31 (← afterMark? '-' cs)
  let date : Date := ⟨year, month, day⟩
  if date.isValid then return (date, cs) else none

/-- What follows the separator between the date and the time. -/
def afterDate? : List Char → Option (List Char)
  | 't' :: rest => some rest
  | 'T' :: rest => some rest
  | ' ' :: rest => some rest
  | _ => none

/-- The nanoseconds of an optional fraction; digits after the ninth do not count. -/
def readFraction? : List Char → Option (Nat × List Char)
  | '.' :: cs =>
      match cs.takeWhile Char.isDigit with
      | [] => none
      | digits =>
          let places := (digits ++ List.replicate 9 '0').take 9
          some (Text.Decimal.value places, cs.drop digits.length)
  | cs => some (0, cs)

/-- The digits of an offset; colons and blanks may stand between hours and minutes. -/
def readOffsetDigits? : List Char → Option (Nat × List Char)
  | h :: h' :: cs =>
      match cs.dropWhile fun c => c = ':' || Text.isBlank c with
      | m :: m' :: rest =>
          let minutes := Text.Decimal.value [m, m']
          if [h, h', m, m'].all Char.isDigit && minutes < 60 then
            some (60 * Text.Decimal.value [h, h'] + minutes, rest)
          else none
      | _ => none
  | _ => none

/-- An offset from UTC in minutes. -/
def readOffset? (cs : List Char) : Option (Int × List Char) :=
  match cs with
  | 'Z' :: rest => some (0, rest)
  | 'z' :: rest => some (0, rest)
  | '+' :: rest => (readOffsetDigits? rest).map fun (n, rest) => ((n : Int), rest)
  | '-' :: rest => (readOffsetDigits? rest).map fun (n, rest) => (-(n : Int), rest)
  | '−' :: rest => (readOffsetDigits? rest).map fun (n, rest) => (-(n : Int), rest)
  | u :: t :: c :: rest =>
      if [u, t, c].map Char.toUpper = ['U', 'T', 'C'] then some (0, rest) else none
  | _ => none

/-- Read a timestamp; the offset is less than a day. -/
def read? (s : String) : Option Instant := do
  let (date, cs) ← readDate? s.toList
  let (hour, cs) ← readPart? 23 (← afterDate? cs)
  let (minute, cs) ← readPart? 59 (← afterMark? ':' cs)
  let (second, cs) ← readPart? 60 (← afterMark? ':' cs)
  let (nanosecond, cs) ← readFraction? cs
  let (offset, cs) ← readOffset? (skipBlanks cs)
  if offset.natAbs < 1440 && (skipBlanks cs).isEmpty then
    ofLocal? date (60 * hour + minute) second nanosecond offset
  else none

end Instant

end ChangeTracking.Time
