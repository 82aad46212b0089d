import ChangeTracking.Json.Value

/-!
# Reading JSON text

Strict JSON: no comments, no trailing commas, no leading zeros, no raw control
characters in strings, and nothing but blanks around the document.  Characters are
grouped into tokens by a scanner that looks at one character at a time; tokens build
the document on a stack of open containers.  Both passes recur on their input.
-/

namespace ChangeTracking.Json

/-! ## Tokens -/

/-- The smallest meaningful parts of JSON text. -/
inductive Token
  | openObject | closeObject | openArray | closeArray | comma | colon
  | scalar (value : Json)
  deriving Repr

def isBlank (c : Char) : Bool :=
  c == ' ' || c == '\n' || c == '\t' || c == '\r'

/-- Characters of numbers and of the three literal names. -/
def isWordChar (c : Char) : Bool :=
  c.isAlphanum || c == '-' || c == '+' || c == '.'

/-- The rest after a non-empty run of digits. -/
def afterDigits? : List Char → Option (List Char)
  | c :: cs => if c.isDigit then some (cs.dropWhile Char.isDigit) else none
  | [] => none

/-- The rest after the integer part: one zero, or digits that begin with none. -/
def afterInteger? : List Char → Option (List Char)
  | '0' :: cs => some cs
  | cs => afterDigits? cs

/-- The rest after an optional fraction. -/
def afterFraction? : List Char → Option (List Char)
  | '.' :: cs => afterDigits? cs
  | cs => some cs

/-- The rest after an optional sign. -/
def afterSign : List Char → List Char
  | '+' :: cs => cs
  | '-' :: cs => cs
  | cs => cs

/-- The rest after an optional exponent. -/
def afterExponent? : List Char → Option (List Char)
  | c :: cs => if c == 'e' || c == 'E' then afterDigits? (afterSign cs) else some (c :: cs)
  | [] => some []

/-- The characters spell a JSON number. -/
def isNumber (cs : List Char) : Bool :=
  let unsigned := match cs with
    | '-' :: rest => rest
    | _ => cs
  ((afterInteger? unsigned).bind afterFraction? |>.bind afterExponent?) == some []

/-- The scalar spelled by a run of word characters. -/
def ofWord? (word : List Char) : Option Json :=
  if word = ['n', 'u', 'l', 'l'] then some .null
  else if word = ['t', 'r', 'u', 'e'] then some (.bool true)
  else if word = ['f', 'a', 'l', 's', 'e'] then some (.bool false)
  else if isNumber word then some (.number (String.ofList word))
  else none

/-- The value of a hexadecimal digit. -/
def hexDigit? (c : Char) : Option Nat :=
  if c.isDigit then some (c.toNat - '0'.toNat)
  else if 'a' ≤ c ∧ c ≤ 'f' then some (c.toNat - 'a'.toNat + 10)
  else if 'A' ≤ c ∧ c ≤ 'F' then some (c.toNat - 'A'.toNat + 10)
  else none

/-- The character that a one-letter escape stands for. -/
def escaped? : Char → Option Char
  | '"' => some '"'
  | '\\' => some '\\'
  | '/' => some '/'
  | 'b' => some '\x08'
  | 'f' => some '\x0c'
  | 'n' => some '\n'
  | 'r' => some '\r'
  | 't' => some '\t'
  | _ => none

/-- First halves of surrogate pairs. -/
def isHighHalf (n : Nat) : Bool := 0xD800 ≤ n && n < 0xDC00

/-- Second halves of surrogate pairs. -/
def isLowHalf (n : Nat) : Bool := 0xDC00 ≤ n && n < 0xE000

/-- The text of code units, in which only escapes can name halves of pairs. -/
def charsOfUnits? : List Nat → Option (List Char)
  | [] => some []
  | unit :: [] =>
      if isHighHalf unit || isLowHalf unit then none else some [Char.ofNat unit]
  | unit :: next :: rest =>
      if isHighHalf unit then
        if isLowHalf next then
          (charsOfUnits? rest).map
            (Char.ofNat (0x10000 + (unit - 0xD800) * 0x400 + (next - 0xDC00)) :: ·)
        else none
      else if isLowHalf unit then none
      else (charsOfUnits? (next :: rest)).map (Char.ofNat unit :: ·)

/-- What the scanner is in the middle of; collected parts are in reverse. -/
inductive Mode
  | between
  | word (chars : List Char)
  | quoted (units : List Nat)
  | escape (units : List Nat)
  | unicode (units : List Nat) (digits : Nat) (value : Nat)

/-- Begin a token at `c`, putting finished tokens in front of `out`. -/
def startToken (out : List Token) (c : Char) : Option (Mode × List Token) :=
  if isBlank c then some (.between, out)
  else if c == '\x7b' then some (.between, .openObject :: out)
  else if c == '\x7d' then some (.between, .closeObject :: out)
  else if c == '[' then some (.between, .openArray :: out)
  else if c == ']' then some (.between, .closeArray :: out)
  else if c == ',' then some (.between, .comma :: out)
  else if c == ':' then some (.between, .colon :: out)
  else if c == '"' then some (.quoted [], out)
  else if isWordChar c then some (.word [c], out)
  else none

def scanChar (mode : Mode) (out : List Token) (c : Char) : Option (Mode × List Token) :=
  match mode with
  | .between => startToken out c
  | .word chars =>
      if isWordChar c then some (.word (c :: chars), out)
      else (ofWord? chars.reverse).bind fun value => startToken (.scalar value :: out) c
  | .quoted units =>
      if c == '"' then
        some (.between,
          .scalar (.string ((charsOfUnits? units.reverse).map String.ofList)) :: out)
      else if c == '\\' then some (.escape units, out)
      else if c.toNat < 0x20 then none
      else some (.quoted (c.toNat :: units), out)
  | .escape units =>
      if c == 'u' then some (.unicode units 0 0, out)
      else (escaped? c).map fun d => (.quoted (d.toNat :: units), out)
  | .unicode units digits value =>
      (hexDigit? c).map fun d =>
        if digits = 3 then (.quoted ((16 * value + d) :: units), out)
        else (.unicode units (digits + 1) (16 * value + d), out)

/-- All tokens, in reverse. -/
def scan (mode : Mode) (out : List Token) : List Char → Option (List Token)
  | [] =>
      match mode with
      | .between => some out
      | .word chars => (ofWord? chars.reverse).map fun value => .scalar value :: out
      | _ => none
  | c :: cs =>
      match scanChar mode out c with
      | none => none
      | some (mode, out) => scan mode out cs

/-! ## Documents -/

/-- An open container; what it holds so far is in reverse. -/
inductive Frame
  | items (done : List Json)
  | members (done : List (Option String × Json)) (key : Option String)

/-- What may come next. -/
inductive Expecting
  | value (stack : List Frame)
  | itemOrEnd (stack : List Frame)
  | keyOrEnd (stack : List Frame)
  | key (done : List (Option String × Json)) (stack : List Frame)
  | colon (done : List (Option String × Json)) (key : Option String) (stack : List Frame)
  | afterItem (done : List Json) (stack : List Frame)
  | afterMember (done : List (Option String × Json)) (stack : List Frame)
  | nothing (document : Json)

/-- Hand a finished value to the container around it. -/
def finish (value : Json) : List Frame → Expecting
  | [] => .nothing value
  | .items done :: stack => .afterItem (value :: done) stack
  | .members done key :: stack => .afterMember ((key, value) :: done) stack

/-- A value begins with this token. -/
def startValue (stack : List Frame) : Token → Option Expecting
  | .scalar value => some (finish value stack)
  | .openArray => some (.itemOrEnd stack)
  | .openObject => some (.keyOrEnd stack)
  | _ => none

def buildToken (state : Expecting) (token : Token) : Option Expecting :=
  match state, token with
  | .value stack, token => startValue stack token
  | .itemOrEnd stack, .closeArray => some (finish (.array []) stack)
  | .itemOrEnd stack, token => startValue (.items [] :: stack) token
  | .keyOrEnd stack, .closeObject => some (finish (.object []) stack)
  | .keyOrEnd stack, .scalar (.string key) => some (.colon [] key stack)
  | .key done stack, .scalar (.string key) => some (.colon done key stack)
  | .colon done key stack, .colon => some (.value (.members done key :: stack))
  | .afterItem done stack, .comma => some (.value (.items done :: stack))
  | .afterItem done stack, .closeArray => some (finish (.array done.reverse) stack)
  | .afterMember done stack, .comma => some (.key done stack)
  | .afterMember done stack, .closeObject => some (finish (.object done.reverse) stack)
  | _, _ => none

/-- The document that a list of tokens spells. -/
def build (state : Expecting) : List Token → Option Json
  | [] =>
      match state with
      | .nothing document => some document
      | _ => none
  | token :: tokens => (buildToken state token).bind fun state => build state tokens

def read? (s : String) : Option Json :=
  (scan .between [] s.toList).bind fun tokens => build (.value []) tokens.reverse

end ChangeTracking.Json
