import Intcode.Text.Quoted
import Intcode.Token
import Intcode.Word

/-!
# Program images

A program is the list of words that a machine's memory starts with. Its text is the words separated
by commas; `Program.parse` reads such a text, in which blanks may stand anywhere between the values
and the commas.

The text is first cut into tokens as a whole, so a character that belongs to no token is reported
before anything else. After that values and commas have to alternate, beginning and ending with a
value, and the leftmost token that breaks this rule, or that is out of range where a value belongs,
is reported.
-/
namespace Intcode

/-- Why a text is no program. -/
inductive ParseError where
  /-- There is nothing but blanks. -/
  | empty
  /-- A word holds a character at which no token starts. -/
  | invalidToken (error : ScanError)
  /-- A value does not fit in a word. -/
  | integerOverflow (numeral : List Char) (place : Place)
  /-- A value belongs before this place. -/
  | missingValue (place : Place)
  /-- A comma belongs before this value. -/
  | missingSeparator (found : List Char) (place : Place)
  deriving DecidableEq, Repr

/-- The report of a text that is no program. -/
def ParseError.message : ParseError → String
  | empty => "program text is empty"
  | invalidToken error => "invalid token " ++ Text.quoted error.word ++ " at " ++ error.place.text
  | integerOverflow numeral place =>
    "integer " ++ String.ofList numeral ++ " out of range at " ++ place.text
  | missingValue place => "missing value before " ++ place.text
  | missingSeparator found place =>
    "expected ',' but found " ++ Text.quoted found ++ " at " ++ place.text

/-- The words that a machine's memory starts with. -/
structure Program where
  /-- The words in order of their addresses. -/
  cells : Array Word
  deriving DecidableEq

namespace Program

/-- The number of words. -/
def size (p : Program) : Nat := p.cells.size

/-- The word at an address, if the image reaches that far. -/
def get? (p : Program) (address : Nat) : Option Word := p.cells[address]?

/-- The words separated by commas, as characters. -/
def chars (p : Program) : List Char :=
  List.intercalate [','] (p.cells.toList.map Word.chars)

/-- The words separated by commas. -/
def text (p : Program) : String := String.ofList p.chars

mutual

/-- The values of tokens that begin with a value; `atEnd` is the error if there are none. -/
def valueFirst (atEnd : ParseError) : List Token → Except ParseError (List Word)
  | [] => .error atEnd
  | token :: rest =>
    match token.kind with
    | .comma => .error (.missingValue token.place)
    | .int =>
      match Word.ofChars? token.lexeme with
      | none => .error (.integerOverflow token.lexeme token.place)
      | some value => do return value :: (← commaFirst rest)

/-- The values of tokens that are none, or begin with a comma. -/
def commaFirst : List Token → Except ParseError (List Word)
  | [] => .ok []
  | token :: rest =>
    match token.kind with
    | .int => .error (.missingSeparator token.lexeme token.place)
    | .comma => valueFirst (.missingValue (token.place.after ',')) rest

end

/-- The values of a list of tokens. -/
def ofTokens (tokens : List Token) : Except ParseError (List Word) := valueFirst .empty tokens

/-- The program of a text given as characters. -/
def parseChars (s : List Char) : Except ParseError Program :=
  match Token.scan s with
  | .error error => .error (.invalidToken error)
  | .ok tokens => (ofTokens tokens).map fun cells => ⟨cells.toArray⟩

/-- The program of a text. -/
def parse (text : String) : Except ParseError Program := parseChars text.toList

end Program

end Intcode
