import Intcode.Json.Token

/-!
# Reading JSON

The reader is a pushdown automaton over the tokens of a text. Its stack holds the arrays and
objects that are still open, innermost first, with what has been read of them; `Want` says what may
come next. One token is one step, so a text may nest its values to any depth.

The reader is strict: one value, with nothing but blanks around it.
-/
namespace Intcode.Json

/-- An array or an object that is still open. What has been read of it comes backwards. -/
inductive Frame where
  /-- An array with its items so far. -/
  | array (items : List Value)
  /-- An object with its members so far and the key whose value is being read. -/
  | object (members : List (List StringPart × Value)) (key : List StringPart)

/-- What may come next. -/
inductive Want where
  /-- A value. -/
  | value
  /-- The first item of an array, or the end of the array. -/
  | firstItem
  /-- The first key of an object, or the end of the object. -/
  | firstKey
  /-- A key of an object with these members so far. -/
  | key (members : List (List StringPart × Value))
  /-- The colon behind this key of an object with these members so far. -/
  | colon (members : List (List StringPart × Value)) (key : List StringPart)
  /-- What follows this value. -/
  | next (value : Value)

/-- The state of the reader. -/
structure Reading where
  /-- The arrays and objects that are open, innermost first. -/
  stack : List Frame
  /-- What may come next. -/
  want : Want

namespace Reading

/-- The reader before the first token. -/
def start : Reading := ⟨[], .value⟩

/-- Reads the first token of a value. -/
def beginValue (stack : List Frame) : Token → Option Reading
  | .scalar s => some ⟨stack, .next (.scalar s)⟩
  | .openArray => some ⟨stack, .firstItem⟩
  | .openObject => some ⟨stack, .firstKey⟩
  | _ => none

/-- Reads a key of an object with some members. -/
def beginMember (stack : List Frame) (members : List (List StringPart × Value)) :
    Token → Option Reading
  | .scalar (.string key) => some ⟨stack, .colon members key⟩
  | _ => none

/-- Reads the token behind a value. -/
def afterValue (value : Value) : List Frame → Token → Option Reading
  | .array items :: stack, .comma => some ⟨.array (value :: items) :: stack, .value⟩
  | .array items :: stack, .closeArray =>
    some ⟨stack, .next (.array (value :: items).reverse)⟩
  | .object members key :: stack, .comma => some ⟨stack, .key ((key, value) :: members)⟩
  | .object members key :: stack, .closeObject =>
    some ⟨stack, .next (.object ((key, value) :: members).reverse)⟩
  | _, _ => none

/-- Reads one token. -/
def step (r : Reading) (token : Token) : Option Reading :=
  match r.want with
  | .value => beginValue r.stack token
  | .firstItem =>
    if token = .closeArray then some ⟨r.stack, .next (.array [])⟩
    else beginValue (.array [] :: r.stack) token
  | .firstKey =>
    if token = .closeObject then some ⟨r.stack, .next (.object [])⟩
    else beginMember r.stack [] token
  | .key members => beginMember r.stack members token
  | .colon members key =>
    if token = .colon then some ⟨.object members key :: r.stack, .value⟩ else none
  | .next value => afterValue value r.stack token

/-- The value that has been read, if it is complete. -/
def result? (r : Reading) : Option Value :=
  match r.stack, r.want with
  | [], .next value => some value
  | _, _ => none

end Reading

/-- The value that a list of tokens stands for. -/
def ofTokens? (tokens : List Token) : Option Value :=
  (tokens.foldlM Reading.step Reading.start).bind Reading.result?

/-- The value that a text given as characters stands for. -/
def readChars? (s : List Char) : Option Value := (Token.scan s).bind ofTokens?

/-- The value that a text stands for. -/
def read? (text : String) : Option Value := readChars? text.toList

end Intcode.Json
