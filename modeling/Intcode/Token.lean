import Intcode.Text.Decimal
import Intcode.Text.Space

/-!
# Tokens of a program text

A program text is made of integers and commas with blanks between them. `Token.scan` cuts a text
into these tokens, always taking the longest integer, and notes the place of each one: the line,
counted from one, and the column, counted from one in bytes of the encoded text.

A character at which no token starts is a `ScanError`. It names the whole word around that
character, from the last comma or white space before it to the next one after it, so that `12x4`
is reported as one word.
-/
namespace Intcode

/-- A place in a text: line and column, both counted from one, the column in bytes. -/
structure Place where
  /-- The line. -/
  line : Nat
  /-- The column. -/
  col : Nat
  deriving DecidableEq, Repr

namespace Place

/-- The place where a text begins. -/
def start : Place := ⟨1, 1⟩

/-- The place after one more character. -/
def after (p : Place) (c : Char) : Place :=
  if c = '\n' then ⟨p.line + 1, 1⟩ else ⟨p.line, p.col + c.utf8Size⟩

/-- The place after more text. -/
def afterAll (p : Place) (s : List Char) : Place := s.foldl after p

/-- The place as reports name it. -/
def text (p : Place) : String :=
  "line " ++ Decimal.text p.line ++ ", col " ++ Decimal.text p.col

end Place

/-- The kinds of token. -/
inductive TokenKind where
  /-- An integer: an optional sign and digits. -/
  | int
  /-- A comma. -/
  | comma
  deriving DecidableEq, Repr

/-- An integer or a comma, with its text and its place. -/
structure Token where
  /-- What the token is. -/
  kind : TokenKind
  /-- The characters of the token. -/
  lexeme : List Char
  /-- The place of its first character. -/
  place : Place
  deriving DecidableEq, Repr

/-- A word of the text that holds a character at which no token starts. -/
structure ScanError where
  /-- The characters of the word. -/
  word : List Char
  /-- The place of the word's first character. -/
  place : Place
  deriving DecidableEq, Repr

namespace Token

/-- Tells whether a character ends the word that an error report quotes. -/
def isDelimiter (c : Char) : Bool := c = ',' || Text.isWhiteSpace c

/-- The longest token at the beginning of a text, with what is left of the text. -/
def leading? : List Char → Option (TokenKind × List Char × List Char)
  | [] => none
  | c :: rest =>
    let digits := rest.takeWhile Char.isDigit
    let rest' := rest.dropWhile Char.isDigit
    if c = ',' then some (.comma, [c], rest)
    else if c.isDigit then some (.int, c :: digits, rest')
    else if (c = '+' || c = '-') && !digits.isEmpty then some (.int, c :: digits, rest')
    else none

/-- The number of bytes of an encoded text. -/
def byteLength (s : List Char) : Nat := s.foldr (fun c n => c.utf8Size + n) 0

/-- The word around a place: `before` is the text before it, backwards, and `rest` the text from
it on. -/
def wordAround (before : List Char) (p : Place) (rest : List Char) : ScanError :=
  let head := (before.takeWhile fun c => !isDelimiter c).reverse
  ⟨head ++ rest.takeWhile fun c => !isDelimiter c, p.line, p.col - byteLength head⟩

/-- A leading token and what is left make up the text. -/
theorem append_of_leading? {s lexeme rest : List Char} {kind : TokenKind}
    (h : leading? s = some (kind, lexeme, rest)) : s = lexeme ++ rest := by
  cases s with
  | nil => simp [leading?] at h
  | cons c s =>
    have hs : s = s.takeWhile Char.isDigit ++ s.dropWhile Char.isDigit :=
      List.takeWhile_append_dropWhile.symm
    simp only [leading?] at h
    split at h
    · cases h; rfl
    · split at h
      · cases h; exact congrArg (c :: ·) hs
      · split at h
        · cases h; exact congrArg (c :: ·) hs
        · cases h

theorem lexeme_ne_nil_of_leading? {s lexeme rest : List Char} {kind : TokenKind}
    (h : leading? s = some (kind, lexeme, rest)) : lexeme ≠ [] := by
  cases s with
  | nil => simp [leading?] at h
  | cons c s =>
    simp only [leading?] at h
    repeat' split at h
    all_goals (cases h; try simp)

theorem length_lt_of_leading? {s lexeme rest : List Char} {kind : TokenKind}
    (h : leading? s = some (kind, lexeme, rest)) : rest.length < s.length := by
  have hs := congrArg List.length (append_of_leading? h)
  have := List.length_pos_iff.2 (lexeme_ne_nil_of_leading? h)
  simp at hs
  omega

/-- The tokens of a text that stands at a place, where `before` is the text before it,
backwards. -/
def scanFrom (before : List Char) (p : Place) : List Char → Except ScanError (List Token)
  | [] => .ok []
  | c :: rest =>
    if Text.isBlank c then scanFrom (c :: before) (p.after c) rest
    else
      match _h : leading? (c :: rest) with
      | none => .error (wordAround before p (c :: rest))
      | some (kind, lexeme, rest') => do
        let tokens ← scanFrom (lexeme.reverse ++ before) (p.afterAll lexeme) rest'
        return ⟨kind, lexeme, p⟩ :: tokens
termination_by s => s.length
decreasing_by
  · simp
  · exact length_lt_of_leading? (by assumption)

/-- The tokens of a text. -/
def scan (s : List Char) : Except ScanError (List Token) := scanFrom [] .start s

end Token

end Intcode
