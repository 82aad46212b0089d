import ChangeTracking.Text.LetterCaseTable

/-!
# Full letter case

Upper and lower case of a whole text by the full Unicode mappings: one character may
become several, and a capital sigma at the end of a word becomes a final sigma.
ASCII characters never consult the tables.
-/

namespace ChangeTracking.Text

namespace LetterCase

/-- Look a character up in the tables of one direction. -/
def mapping (long : List (Nat × List Nat)) (runs : List Run) (c : Char) : List Char :=
  match long.lookup c.toNat with
  | some codes => codes.map Char.ofNat
  | none =>
      match runs.find? (·.covers c.toNat) with
      | some run => [Char.ofNat (Int.toNat (c.toNat + run.shift))]
      | none => [c]

/-- The upper-case form of one character. -/
def upperChar (c : Char) : List Char :=
  if c.toNat < 128 then [c.toUpper] else mapping upperLong upperRuns c

/-- The lower-case form of one character that stands alone. -/
def lowerChar (c : Char) : List Char :=
  if c.toNat < 128 then [c.toLower] else mapping lowerLong lowerRuns c

/-- Whether `c` lies in one of the ranges. -/
def inRanges (ranges : List (Nat × Nat)) (c : Char) : Bool :=
  ranges.any fun range => range.1 ≤ c.toNat && c.toNat ≤ range.2

/-- Whether the first character that case rules do not look through has letter case. -/
def meetsLetter (cs : List Char) : Bool :=
  match cs.dropWhile (inRanges ignorableRanges) with
  | [] => false
  | c :: _ => inRanges casedRanges c

/-- Lower case of `cs`, where `before` holds the preceding characters in reverse. -/
def lowerFrom : List Char → List Char → List Char
  | _, [] => []
  | before, c :: cs =>
      let form :=
        if c = 'Σ' then
          if meetsLetter before && !meetsLetter cs then ['ς'] else ['σ']
        else lowerChar c
      form ++ lowerFrom (c :: before) cs

end LetterCase

def upperCase (s : String) : String :=
  String.ofList (s.toList.flatMap LetterCase.upperChar)

def lowerCase (s : String) : String :=
  String.ofList (LetterCase.lowerFrom [] s.toList)

end ChangeTracking.Text
