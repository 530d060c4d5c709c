import Intcode.Json.Reader

/-!
# Records

How values of this library are read from JSON values. A record is written as an object, or as an
array of its fields in order. In an object the fields may come in any order, no field may come
twice, and members with other keys are skipped; an array may leave out fields at its end. A field
that is left out has a default value, or is missed.

Integers have to be written as integers and be in range of their type, and `null` stands for no
value only where a value is optional.
-/
namespace Intcode.Json

/-- The fields of a record that are present. -/
structure Record where
  /-- The names of the fields with their values. -/
  fields : List (String × Value)

namespace Record

/-- The members of an object whose keys are among some names, if no such key comes twice. All keys
of the object have to be texts. -/
def ofMembers? (names : List String) (members : List (List StringPart × Value)) : Option Record := do
  let named ← members.mapM fun (key, value) => (textOf? key).map fun name => (name, value)
  let known := named.filter fun field => names.contains field.1
  if (known.map Prod.fst).Nodup then some ⟨known⟩ else none

/-- The items of an array as the first fields with some names. -/
def ofItems? (names : List String) (items : List Value) : Option Record :=
  if items.length ≤ names.length then some ⟨names.zip items⟩ else none

/-- A value as a record with some field names. -/
def ofValue? (names : List String) : Value → Option Record
  | .object members => ofMembers? names members
  | .array items => ofItems? names items
  | .scalar _ => none

/-- The value of a field, if it is present. -/
def get? (r : Record) (name : String) : Option Value := r.fields.lookup name

/-- Reads a field that must not be left out. -/
def required {α : Type} (r : Record) (name : String) (read : Value → Option α) : Option α :=
  (r.get? name).bind read

/-- Reads a field that has a default value. -/
def optional {α : Type} (r : Record) (name : String) (default : α) (read : Value → Option α) :
    Option α :=
  match r.get? name with
  | some value => read value
  | none => some default

end Record

namespace Value

/-- A value as an integer. -/
def toInt? : Value → Option Int
  | .scalar (.integer n) => some n
  | _ => none

/-- A value as a word. -/
def toWord? (v : Value) : Option Word := v.toInt?.bind Word.ofInt?

/-- A value as an unsigned integer below a bound. -/
def toNatBelow? (bound : Nat) (v : Value) : Option Nat :=
  match v.toInt? with
  | some (.ofNat n) => if n < bound then some n else none
  | _ => none

/-- A value as an unsigned 64-bit integer. -/
def toCount? (v : Value) : Option UInt64 :=
  (v.toNatBelow? 18446744073709551616).map UInt64.ofNat

/-- A value as an unsigned 32-bit integer. -/
def toSmallCount? (v : Value) : Option UInt32 := (v.toNatBelow? 4294967296).map UInt32.ofNat

/-- A value as a truth value. -/
def toBool? : Value → Option Bool
  | .scalar (.bool b) => some b
  | _ => none

/-- A value as a list of words. -/
def toWords? : Value → Option (List Word)
  | .array items => items.mapM toWord?
  | _ => none

/-- A value as an optional word; `null` stands for none. -/
def toOptionalWord? : Value → Option (Option Word)
  | .scalar .null => some none
  | v => v.toWord?.map some

end Value

end Intcode.Json
