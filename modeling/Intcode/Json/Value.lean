import Intcode.Word

/-!
# JSON values

The data of a JSON text. Two things are kept as they were written because a reader may or may not
care about them. A string is a list of parts, each one a character or the escaped code unit of a
character; `textOf?` joins the parts to a text and fails where a surrogate stands alone. A number
with a fraction or an exponent, and the number minus zero, is kept as its text; all other numbers
are integers of any size.
-/
namespace Intcode.Json

/-- A piece of a string. -/
inductive StringPart where
  /-- A character, written as itself or by a short escape. -/
  | char (c : Char)
  /-- A code unit, written by an escape with four hexadecimal digits. -/
  | unit (n : Nat)
  deriving DecidableEq

/-- A value without parts. -/
inductive Scalar where
  /-- The value `null`. -/
  | null
  /-- A truth value. -/
  | bool (b : Bool)
  /-- A number written as an integer, other than minus zero. -/
  | integer (n : Int)
  /-- Any other number, as it is written. -/
  | decimal (text : List Char)
  /-- A string. -/
  | string (parts : List StringPart)
  deriving DecidableEq

/-- A JSON value. -/
inductive Value where
  /-- A value without parts. -/
  | scalar (s : Scalar)
  /-- A list of values. -/
  | array (items : List Value)
  /-- A list of values with keys. -/
  | object (members : List (List StringPart × Value))

/-- Tells whether a code unit is the first half of a character. -/
def isHighSurrogate (n : Nat) : Bool := 0xd800 ≤ n && n < 0xdc00

/-- Tells whether a code unit is the second half of a character. -/
def isLowSurrogate (n : Nat) : Bool := 0xdc00 ≤ n && n < 0xe000

/-- The characters of a string, if all its surrogates come in pairs. -/
def charsOf? : List StringPart → Option (List Char)
  | [] => some []
  | .char c :: rest => (charsOf? rest).map (c :: ·)
  | .unit high :: .unit low :: rest =>
    if isHighSurrogate high then
      if isLowSurrogate low then
        (charsOf? rest).map
          (Char.ofNat (0x10000 + (high - 0xd800) * 0x400 + (low - 0xdc00)) :: ·)
      else none
    else if isLowSurrogate high then none
    else (charsOf? (.unit low :: rest)).map (Char.ofNat high :: ·)
  | .unit n :: rest =>
    if isHighSurrogate n || isLowSurrogate n then none
    else (charsOf? rest).map (Char.ofNat n :: ·)

/-- The text of a string, if all its surrogates come in pairs. -/
def textOf? (parts : List StringPart) : Option String := (charsOf? parts).map String.ofList

/-- The parts of a string that is written without code units. -/
def partsOf (text : String) : List StringPart := text.toList.map .char

namespace Value

/-- The value `null`. -/
def null : Value := .scalar .null

/-- An integer as a value. -/
def int (n : Int) : Value := .scalar (.integer n)

/-- A word as a value. -/
def word (w : Word) : Value := int w.toInt

/-- An unsigned number as a value. -/
def count (u : UInt64) : Value := int u.toNat

/-- A list of words as a value. -/
def words (ws : List Word) : Value := .array (ws.map word)

/-- A text as a value. -/
def text (s : String) : Value := .scalar (.string (partsOf s))

/-- A list of values with the texts that are their keys. -/
def record (members : List (String × Value)) : Value :=
  .object (members.map fun (key, value) => (partsOf key, value))

end Value

end Intcode.Json
