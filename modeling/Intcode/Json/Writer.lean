import Intcode.Json.Token

/-!
# Writing JSON

Two forms of a value: a compact one on a single line without blanks, and an indented one, with each
item of an array and each member of an object on a line of its own, two spaces deeper than what
surrounds it. Both write the same tokens; empty arrays and objects have nothing between their
brackets in either form.
-/
namespace Intcode.Json

/-- A string as it is written. -/
def stringChars (parts : List StringPart) : List Char := (Scalar.string parts).chars

namespace Value

mutual

/-- The tokens of a value. -/
def tokens : Value → List Token
  | .scalar s => [.scalar s]
  | .array items => .openArray :: itemTokens items ++ [.closeArray]
  | .object members => .openObject :: memberTokens members ++ [.closeObject]

/-- The tokens of the items of an array. -/
def itemTokens : List Value → List Token
  | [] => []
  | [item] => item.tokens
  | item :: rest => item.tokens ++ .comma :: itemTokens rest

/-- The tokens of the members of an object. -/
def memberTokens : List (List StringPart × Value) → List Token
  | [] => []
  | [(key, value)] => .scalar (.string key) :: .colon :: value.tokens
  | (key, value) :: rest =>
    .scalar (.string key) :: .colon :: value.tokens ++ .comma :: memberTokens rest

end

/-- The compact form, as characters. -/
def compactChars (v : Value) : List Char := v.tokens.flatMap Token.chars

/-- The compact form. -/
def compact (v : Value) : String := String.ofList v.compactChars

/-- A new line at a depth of indentation. -/
def newline (depth : Nat) : List Char := '\n' :: List.replicate (2 * depth) ' '

mutual

/-- The indented form of a value at a depth. -/
def indented (depth : Nat) : Value → List Char
  | .scalar s => s.chars
  | .array [] => ['[', ']']
  | .array items => '[' :: indentedItems (depth + 1) items ++ newline depth ++ [']']
  | .object [] => ['\x7b', '\x7d']
  | .object members =>
    '\x7b' :: indentedMembers (depth + 1) members ++ newline depth ++ ['\x7d']

/-- The items of an array, each on a line at a depth. -/
def indentedItems (depth : Nat) : List Value → List Char
  | [] => []
  | [item] => newline depth ++ item.indented depth
  | item :: rest => newline depth ++ item.indented depth ++ ',' :: indentedItems depth rest

/-- The members of an object, each on a line at a depth. -/
def indentedMembers (depth : Nat) : List (List StringPart × Value) → List Char
  | [] => []
  | [(key, value)] => newline depth ++ stringChars key ++ [':', ' '] ++ value.indented depth
  | (key, value) :: rest =>
    newline depth ++ stringChars key ++ [':', ' '] ++ value.indented depth ++
      ',' :: indentedMembers depth rest

end

/-- The indented form. -/
def pretty (v : Value) : String := String.ofList (v.indented 0)

end Value

end Intcode.Json
