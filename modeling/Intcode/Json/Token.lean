import Intcode.Json.Value
import Intcode.Text.Space

/-!
# JSON tokens

The tokens of a JSON text: brackets, braces, commas, colons and values without parts.
`Token.scan` cuts a text into tokens; nothing but blanks may stand between them. `Token.chars`
writes a token.

The scanner takes the longest run of characters that can belong to a number, or to one of the
three words, and then checks the run as a whole. That loses nothing, since in no valid text does
another token follow a number or a word immediately unless it is a bracket, a brace, a comma or a
colon.
-/
namespace Intcode.Json

/-- A token of a JSON text. -/
inductive Token where
  /-- An opening bracket. -/
  | openArray
  /-- A closing bracket. -/
  | closeArray
  /-- An opening brace. -/
  | openObject
  /-- A closing brace. -/
  | closeObject
  /-- A comma. -/
  | comma
  /-- A colon. -/
  | colon
  /-- A value without parts. -/
  | scalar (s : Scalar)
  deriving DecidableEq

/-! ### Strings -/

/-- The value of a hexadecimal digit. -/
def hexValue? (c : Char) : Option Nat :=
  if c.isDigit then some (c.toNat - 48)
  else if 'a' ≤ c && c ≤ 'f' then some (c.toNat - 87)
  else if 'A' ≤ c && c ≤ 'F' then some (c.toNat - 55)
  else none

/-- The code unit with four hexadecimal digits. -/
def codeUnit? (a b c d : Char) : Option Nat := do
  return (← hexValue? a) * 4096 + (← hexValue? b) * 256 + (← hexValue? c) * 16 + (← hexValue? d)

/-- The character that a backslash and a letter stand for. -/
def shortEscape? (c : Char) : Option Char :=
  if c = '"' || c = '\\' || c = '/' then some c
  else if c = 'b' then some '\x08'
  else if c = 'f' then some '\x0c'
  else if c = 'n' then some '\n'
  else if c = 'r' then some '\r'
  else if c = 't' then some '\t'
  else none

/-- The parts of a string up to the closing quote, and the text behind it. The parts already read
come backwards. -/
def scanString (done : List StringPart) : List Char → Option (List StringPart × List Char)
  | [] => none
  | '"' :: rest => some (done.reverse, rest)
  | '\\' :: 'u' :: a :: b :: c :: d :: rest =>
    match codeUnit? a b c d with
    | some n => scanString (.unit n :: done) rest
    | none => none
  | '\\' :: e :: rest =>
    match shortEscape? e with
    | some c => scanString (.char c :: done) rest
    | none => none
  | c :: rest => if c.toNat < 0x20 then none else scanString (.char c :: done) rest

/-- A character as it is written within a string. -/
def StringPart.chars : StringPart → List Char
  | .char c =>
    if c = '"' then ['\\', '"']
    else if c = '\\' then ['\\', '\\']
    else if c = '\n' then ['\\', 'n']
    else if c = '\r' then ['\\', 'r']
    else if c = '\t' then ['\\', 't']
    else if c = '\x08' then ['\\', 'b']
    else if c = '\x0c' then ['\\', 'f']
    else if c.toNat < 0x20 then unitChars c.toNat
    else [c]
  | .unit n => unitChars n
where
  /-- A code unit as an escape with four digits. -/
  unitChars (n : Nat) : List Char :=
    ['\\', 'u', Nat.digitChar (n / 4096 % 16), Nat.digitChar (n / 256 % 16),
      Nat.digitChar (n / 16 % 16), Nat.digitChar (n % 16)]

/-! ### Numbers and words -/

/-- Tells whether a character can belong to a number. -/
def isNumberChar (c : Char) : Bool :=
  c.isDigit || c = '-' || c = '+' || c = '.' || c = 'e' || c = 'E'

/-- Tells whether a text is an exponent, or nothing. -/
def isExponent : List Char → Bool
  | [] => true
  | e :: rest =>
    let digits := match rest with
      | '+' :: digits => digits
      | '-' :: digits => digits
      | digits => digits
    (e = 'e' || e = 'E') && !digits.isEmpty && digits.all Char.isDigit

/-- Tells whether a text is a fraction or an exponent or one behind the other. -/
def isFraction : List Char → Bool
  | '.' :: rest =>
    !(rest.takeWhile Char.isDigit).isEmpty && isExponent (rest.dropWhile Char.isDigit)
  | rest => isExponent rest

/-- The number that a text stands for. -/
def number? (text : List Char) : Option Scalar :=
  let (negative, size) := match text with
    | '-' :: size => (true, size)
    | size => (false, size)
  let whole := size.takeWhile Char.isDigit
  let rest := size.dropWhile Char.isDigit
  if whole.isEmpty || (whole.head? = some '0' && whole.length ≠ 1) then none
  else if rest.isEmpty then
    let n := Nat.ofDigitChars 10 whole 0
    if !negative then some (.integer n)
    else if n = 0 then some (.decimal text)
    else some (.integer (-n))
  else if isFraction rest then some (.decimal text)
  else none

/-- The value that a word stands for. -/
def word? (text : List Char) : Option Scalar :=
  if text = ['n', 'u', 'l', 'l'] then some .null
  else if text = ['t', 'r', 'u', 'e'] then some (.bool true)
  else if text = ['f', 'a', 'l', 's', 'e'] then some (.bool false)
  else none

namespace Scalar

/-- A value without parts as it is written. -/
def chars : Scalar → List Char
  | .null => ['n', 'u', 'l', 'l']
  | .bool true => ['t', 'r', 'u', 'e']
  | .bool false => ['f', 'a', 'l', 's', 'e']
  | .integer n => Decimal.signed n
  | .decimal text => text
  | .string parts => '"' :: parts.flatMap StringPart.chars ++ ['"']

end Scalar

namespace Token

/-- A token as it is written. -/
def chars : Token → List Char
  | .openArray => ['[']
  | .closeArray => [']']
  | .openObject => ['\x7b']
  | .closeObject => ['\x7d']
  | .comma => [',']
  | .colon => [':']
  | .scalar s => s.chars

/-- The punctuation mark that a character is. -/
def ofMark? (c : Char) : Option Token :=
  if c = '[' then some .openArray
  else if c = ']' then some .closeArray
  else if c = '\x7b' then some .openObject
  else if c = '\x7d' then some .closeObject
  else if c = ',' then some .comma
  else if c = ':' then some .colon
  else none

/-- The token at the beginning of a text, with what is left of the text. -/
def leading? : List Char → Option (Token × List Char)
  | [] => none
  | c :: rest =>
    match ofMark? c with
    | some token => some (token, rest)
    | none =>
      if c = '"' then
        (scanString [] rest).map fun (parts, rest') => (.scalar (.string parts), rest')
      else if isNumberChar c then
        (number? (c :: rest.takeWhile isNumberChar)).map fun s =>
          (.scalar s, rest.dropWhile isNumberChar)
      else
        (word? (c :: rest.takeWhile Char.isAlpha)).map fun s =>
          (.scalar s, rest.dropWhile Char.isAlpha)

theorem length_le_of_scanString {done parts : List StringPart} {s rest : List Char}
    (h : scanString done s = some (parts, rest)) : rest.length ≤ s.length := by
  fun_induction scanString done s with
  | case1 => cases h
  | case2 => cases h; simp
  | case3 done a b c d rest' n hn ih => have := ih h; simp; omega
  | case4 => cases h
  | case5 done e rest' hne c hc ih => have := ih h; simp; omega
  | case6 => cases h
  | case7 => cases h
  | case8 done c rest' hq h1 h2 hc ih => have := ih h; simp; omega

theorem length_lt_of_leading? {s rest : List Char} {token : Token}
    (h : leading? s = some (token, rest)) : rest.length < s.length := by
  cases s with
  | nil => cases h
  | cons c s =>
    have hdrop (p : Char → Bool) : (s.dropWhile p).length ≤ s.length :=
      (List.dropWhile_sublist p).length_le
    simp only [leading?] at h
    split at h
    · cases h; simp
    · split at h
      · obtain ⟨⟨parts, rest'⟩, hscan, heq⟩ := Option.map_eq_some_iff.1 h
        cases heq
        have := length_le_of_scanString hscan
        simp; omega
      · split at h
        · obtain ⟨_, _, heq⟩ := Option.map_eq_some_iff.1 h
          cases heq
          have := hdrop isNumberChar
          simp; omega
        · obtain ⟨_, _, heq⟩ := Option.map_eq_some_iff.1 h
          cases heq
          have := hdrop Char.isAlpha
          simp; omega

/-- The tokens of a text behind tokens already found, which come backwards. -/
def scanFrom (done : List Token) : List Char → Option (List Token)
  | [] => some done.reverse
  | c :: rest =>
    if Text.isBlank c then scanFrom done rest
    else
      match _h : leading? (c :: rest) with
      | none => none
      | some (token, rest') => scanFrom (token :: done) rest'
termination_by s => s.length
decreasing_by
  · simp
  · exact length_lt_of_leading? (by assumption)

/-- The tokens of a text. -/
def scan (s : List Char) : Option (List Token) := scanFrom [] s

end Token

end Intcode.Json
