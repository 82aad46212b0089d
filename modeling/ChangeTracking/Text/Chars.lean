/-!
# Operations on texts

What names, scripts, numbers and digests are read and written with: each operation is given
by a structural function on the characters of a text and lifted to `String` once.
-/

namespace ChangeTracking.Text

/-! ## Parts and substitution -/

/-- Replace every character by the text that `f` gives for it. -/
def expand (f : Char → List Char) (s : String) : String :=
  String.ofList (s.toList.flatMap f)

@[simp] theorem toList_expand (f : Char → List Char) (s : String) :
    (expand f s).toList = s.toList.flatMap f := by
  simp [expand]

theorem toList_toLower (s : String) : s.toLower.toList = s.toList.map Char.toLower :=
  String.toList_map

theorem toLower_eq {s t : String} (h : s.toList.map Char.toLower = t.toList) : s.toLower = t :=
  String.toList_inj.mp ((toList_toLower s).trans h)

theorem toList_toUpper (s : String) : s.toUpper.toList = s.toList.map Char.toUpper :=
  String.toList_map

/-- Replace every occurrence of the character `c`. -/
def replaceChar (c : Char) (replacement : String) (s : String) : String :=
  expand (fun d => if d = c then replacement.toList else [d]) s

/-- The parts of `s` between occurrences of `sep`; never empty. -/
def segments (sep : Char) (s : String) : List String :=
  (s.toList.splitOn sep).map String.ofList

theorem segments_ne_nil (sep : Char) (s : String) : segments sep s ≠ [] := by
  simp [segments, List.splitOn_ne_nil]

/-- What follows `start` in `cs`, when `cs` starts with it. -/
def charsAfter? : List Char → List Char → Option (List Char)
  | [], cs => some cs
  | _ :: _, [] => none
  | s :: start, c :: cs => if s = c then charsAfter? start cs else none

theorem charsAfter?_eq_some_iff (start cs rest : List Char) :
    charsAfter? start cs = some rest ↔ cs = start ++ rest := by
  induction start generalizing cs with
  | nil => simp [charsAfter?, eq_comm]
  | cons s start ih =>
      cases cs with
      | nil => simp [charsAfter?]
      | cons c cs =>
          by_cases h : s = c
          · simp [charsAfter?, h, ih]
          · simp [charsAfter?, h, Ne.symm h]

/-- What follows `start` in `s`, when `s` starts with it. -/
def after? (start s : String) : Option String :=
  (charsAfter? start.toList s.toList).map String.ofList

theorem after?_eq_some_iff {start s rest : String} :
    after? start s = some rest ↔ s = start ++ rest := by
  rw [after?, Option.map_eq_some_iff]
  constructor
  · rintro ⟨cs, hcs, rfl⟩
    rw [charsAfter?_eq_some_iff] at hcs
    rw [← String.toList_inj, String.toList_append, hcs, String.toList_ofList]
  · rintro rfl
    exact ⟨rest.toList, (charsAfter?_eq_some_iff ..).mpr String.toList_append,
      String.ofList_toList⟩

/-- What precedes `ending` in `s`, when `s` ends with it. -/
def before? (ending s : String) : Option String :=
  (charsAfter? ending.toList.reverse s.toList.reverse).map fun rest => String.ofList rest.reverse

/-- Whether `word` occurs somewhere in the characters. -/
def occursIn (word : List Char) : List Char → Bool
  | [] => word.isEmpty
  | c :: cs => (charsAfter? word (c :: cs)).isSome || occursIn word cs

/-- Whether `word` occurs somewhere in `s`. -/
def contains (word s : String) : Bool :=
  occursIn word.toList s.toList

/-! ## Quoted text

Two ways of writing any text between delimiters: the SQL way, which writes the delimiter
twice inside, and the Java way, which escapes with a backslash. -/

/-- Enclose `s` in `quote`, writing each `quote` inside twice. -/
def doubled (quote : Char) (s : String) : String :=
  String.ofList (quote :: s.toList.flatMap (fun c => if c = quote then [quote, quote] else [c]) ++ [quote])

def sqlLiteral (s : String) : String :=
  doubled '\'' s

/-- An SQL identifier kept verbatim. -/
def sqlIdentifier (s : String) : String :=
  doubled '"' s

/-- The spelling of one character inside a Java string literal. -/
def javaEscape : Char → List Char
  | '\\' => ['\\', '\\']
  | '"' => ['\\', '"']
  | '\n' => ['\\', 'n']
  | c => [c]

def javaLiteral (s : String) : String :=
  String.ofList ('"' :: s.toList.flatMap javaEscape ++ ['"'])

/-! ## Lines

A text is a sequence of lines, each ended by a line feed; the last end may be missing, and a
carriage return right before a line feed belongs to the end. -/

/-- Drop the carriage return that a line ended by a line feed may carry. -/
def withoutReturn (line : List Char) : List Char :=
  match line.reverse with
  | '\r' :: rest => rest.reverse
  | _ => line

/-- The lines in `cs`, given the characters of the current line in reverse. -/
def linesFrom : List Char → List Char → List (List Char)
  | [], [] => []
  | current@(_ :: _), [] => [current.reverse]
  | current, '\n' :: cs => withoutReturn current.reverse :: linesFrom [] cs
  | current, c :: cs => linesFrom (c :: current) cs

/-- The lines of `s` without their ends. -/
def lines (s : String) : List String :=
  (linesFrom [] s.toList).map String.ofList

/-- Indent every line that is not empty by `depth` levels of four spaces. -/
def indent (depth : Nat) (s : String) : String :=
  let pad := String.ofList (List.replicate (4 * depth) ' ')
  "\n".intercalate ((lines s).map fun line => if line = "" then "" else pad ++ line)

/-! ## Blanks and digits -/

/-- The ranges of characters that are blanks: they have the Unicode property `White_Space`. -/
def blankRanges : List (Nat × Nat) :=
  [(0x09, 0x0D), (0x20, 0x20), (0x85, 0x85), (0xA0, 0xA0), (0x1680, 0x1680),
    (0x2000, 0x200A), (0x2028, 0x2029), (0x202F, 0x202F), (0x205F, 0x205F),
    (0x3000, 0x3000)]

def isBlank (c : Char) : Bool :=
  blankRanges.any fun range => range.1 ≤ c.toNat && c.toNat ≤ range.2

/-- The characters from the first one on that is no blank. -/
def skipBlanks (cs : List Char) : List Char := cs.dropWhile isBlank

namespace Decimal

/-- The number that ASCII digits spell. -/
def value (digits : List Char) : Nat :=
  digits.foldl (fun n digit => 10 * n + (digit.toNat - '0'.toNat)) 0

/-- The digits of a number, with zeros in front of them up to a width. -/
def padded (width n : Nat) : String :=
  let digits := Nat.toDigits 10 n
  String.ofList (List.replicate (width - digits.length) '0' ++ digits)

/-- A run of at least one and at most `limit` digits at the front, and what follows. -/
def read? (limit : Nat) (cs : List Char) : Option (Nat × List Char) :=
  match (cs.take limit).takeWhile Char.isDigit with
  | [] => none
  | digits => some (value digits, cs.drop digits.length)

end Decimal

/-! ## Bytes -/

/-- The UTF-8 bytes of a text. -/
def utf8 (s : String) : List UInt8 := s.toList.flatMap String.utf8EncodeChar

/-- A text is known from its bytes. -/
theorem utf8_injective {s t : String} (h : utf8 s = utf8 t) : s = t := by
  have hbytes : s.toList.utf8Encode = t.toList.utf8Encode := congrArg List.toByteArray h
  rwa [String.utf8Encode_toList, String.utf8Encode_toList, String.toByteArray_inj] at hbytes

def ofUtf8? (bytes : List UInt8) : Option String :=
  String.fromUTF8? (ByteArray.mk bytes.toArray)

/-- A byte as two hexadecimal digits in lower case. -/
def hexByte (byte : UInt8) : List Char :=
  [Nat.digitChar (byte.toNat / 16), Nat.digitChar (byte.toNat % 16)]

def hex (bytes : List UInt8) : String := String.ofList (bytes.flatMap hexByte)

end ChangeTracking.Text
