import Intcode.Text.Printable

/-!
# Quoted text

The form in which reports show a piece of a text that they complain about: between double quotes,
on one line and without a character that a reader could not see. A double quote and a backslash get
a backslash in front; the line feed, carriage return, tab and NUL have letters; a character that is
not printable is written as its code point in braces. All else stands for itself, the single
quote too.
-/
namespace Intcode.Text

/-- The lower-case hexadecimal digits of a number. -/
def hexDigits (n : Nat) : List Char := Nat.toDigits 16 n

/-- One character as it stands in a quoted text. -/
def quotedChar (c : Char) : List Char :=
  if c = '"' then ['\\', '"']
  else if c = '\\' then ['\\', '\\']
  else if c = '\n' then ['\\', 'n']
  else if c = '\r' then ['\\', 'r']
  else if c = '\t' then ['\\', 't']
  else if c.toNat = 0 then ['\\', '0']
  else if isPrintable c then [c]
  else ['\\', 'u', '\x7b'] ++ hexDigits c.toNat ++ ['\x7d']

/-- A text between quotes. -/
def quoted (s : List Char) : String :=
  String.ofList ('"' :: s.flatMap quotedChar ++ ['"'])

end Intcode.Text
