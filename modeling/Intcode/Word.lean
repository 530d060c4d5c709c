import Intcode.Text.Decimal

/-!
# Words

The values that a machine computes with: the integers that fit in 64 bits with a sign. Arithmetic
on words is checked, not wrapped: `Word.add?` and `Word.mul?` give the exact sum and product where
they are words, and nothing otherwise.

Counters and addresses of instructions are unsigned 64-bit numbers; `Word.ofCount` says which word
the bits of such a number are, so that a number from 2^63 on is read as a negative word.
-/
namespace Intcode

/-- An integer that fits in 64 bits with a sign. -/
structure Word where
  /-- The integer itself. -/
  toInt : Int
  /-- It is not below the least word. -/
  min_le : -9223372036854775808 ≤ toInt
  /-- It is not above the greatest word. -/
  le_max : toInt ≤ 9223372036854775807
  deriving DecidableEq

namespace Word

theorem ext_toInt {a b : Word} (h : a.toInt = b.toInt) : a = b := by
  cases a; cases b; cases h; rfl

instance : OfNat Word 0 := ⟨⟨0, by omega, by omega⟩⟩

instance : OfNat Word 1 := ⟨⟨1, by omega, by omega⟩⟩

instance : Inhabited Word := ⟨0⟩

/-- The word of an integer in range. -/
def ofInt? (n : Int) : Option Word :=
  if h : -9223372036854775808 ≤ n ∧ n ≤ 9223372036854775807 then some ⟨n, h.1, h.2⟩ else none

/-- The word one or zero that stands for an answer. -/
def ofBool (b : Bool) : Word := if b then 1 else 0

/-- The word of a byte. -/
def ofByte (b : UInt8) : Word :=
  ⟨b.toNat, by omega, by have := b.toNat_lt; omega⟩

/-- The word minus one. -/
def minusOne : Word := ⟨-1, by omega, by omega⟩

/-- The word with the bits of an unsigned number: from 2^63 on the numbers count as negative. -/
def ofCount (u : UInt64) : Word :=
  if h : u.toNat < 9223372036854775808 then ⟨u.toNat, by omega, by omega⟩
  else ⟨u.toNat - 18446744073709551616, by omega, by have := u.toNat_lt; omega⟩

/-- The unsigned number that a word which is not negative is. -/
def toCount? (w : Word) : Option UInt64 :=
  if w.toInt < 0 then none else some (UInt64.ofNat w.toInt.toNat)

/-- The exact sum, where it is a word. -/
def add? (a b : Word) : Option Word := ofInt? (a.toInt + b.toInt)

/-- The exact product, where it is a word. -/
def mul? (a b : Word) : Option Word := ofInt? (a.toInt * b.toInt)

/-- The answer to `a < b` as a word. -/
def less (a b : Word) : Word := ofBool (decide (a.toInt < b.toInt))

/-- The answer to `a = b` as a word. -/
def same (a b : Word) : Word := ofBool (decide (a.toInt = b.toInt))

/-- The decimal numeral of a word. -/
def chars (w : Word) : List Char := Decimal.signed w.toInt

/-- The decimal text of a word. -/
def text (w : Word) : String := String.ofList w.chars

/-- The word that a numeral with an optional sign denotes. -/
def ofChars? (numeral : List Char) : Option Word := (Decimal.readInt? numeral).bind ofInt?

theorem ofInt?_toInt (w : Word) : ofInt? w.toInt = some w := by
  simp [ofInt?, w.min_le, w.le_max]

theorem ofInt?_eq_some_iff {n : Int} {w : Word} : ofInt? n = some w ↔ w.toInt = n := by
  constructor
  · intro h
    unfold ofInt? at h
    split at h
    · cases h; rfl
    · cases h
  · rintro rfl; exact ofInt?_toInt w

/-- Reading the numeral of a word gives the word back. -/
theorem ofChars?_chars (w : Word) : ofChars? w.chars = some w := by
  simp [ofChars?, chars, Decimal.readInt?_signed, ofInt?_toInt]

/-- A number below 2^63 keeps its value. -/
theorem toInt_ofCount_of_lt {u : UInt64} (h : u.toNat < 9223372036854775808) :
    (ofCount u).toInt = u.toNat := by
  simp [ofCount, h]

/-- A number from 2^63 on is read as negative. -/
theorem toInt_ofCount_neg {u : UInt64} (h : 9223372036854775808 ≤ u.toNat) :
    (ofCount u).toInt < 0 := by
  have := u.toNat_lt
  simp [ofCount, show ¬ u.toNat < 9223372036854775808 by omega]
  omega

end Word

end Intcode
