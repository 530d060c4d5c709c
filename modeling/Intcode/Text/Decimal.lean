/-!
# Decimal numerals

The texts of numbers, in both directions. A natural number is written as its decimal digits
without leading zeros; a negative integer gets a minus sign in front. Reading is more liberal: any
non-empty run of ASCII digits is a numeral, and a signed numeral may also carry a plus sign.

Reading undoes writing (`readNat?_digits`, `readInt?_signed`).
-/
namespace Intcode.Decimal

/-- The decimal digits of a natural number, without leading zeros. -/
def digits (n : Nat) : List Char := Nat.toDigits 10 n

/-- The numeral of an integer: a minus sign if it is negative, then the digits of its size. -/
def signed : Int → List Char
  | .ofNat n => digits n
  | .negSucc n => '-' :: digits (n + 1)

/-- The digits of a natural number, filled up with zeros on the left to a least width. -/
def padded (width n : Nat) : List Char :=
  List.replicate (width - (digits n).length) '0' ++ digits n

/-- The number that a non-empty run of ASCII digits denotes. -/
def readNat? (numeral : List Char) : Option Nat :=
  if !numeral.isEmpty && numeral.all Char.isDigit then some (Nat.ofDigitChars 10 numeral 0)
  else none

/-- The number that a run of digits with an optional sign denotes. -/
def readInt? : List Char → Option Int
  | '-' :: numeral => (readNat? numeral).map fun n => -(n : Int)
  | '+' :: numeral => (readNat? numeral).map fun n => (n : Int)
  | numeral => (readNat? numeral).map fun n => (n : Int)

/-- The number that a run of digits with an optional plus sign denotes. -/
def readUnsigned? : List Char → Option Nat
  | '+' :: numeral => readNat? numeral
  | numeral => readNat? numeral

/-- The decimal text of a natural number. -/
def text (n : Nat) : String := String.ofList (digits n)

theorem digits_ne_nil (n : Nat) : digits n ≠ [] := Nat.toDigits_ne_nil

theorem isDigit_of_mem_digits {n : Nat} {c : Char} (h : c ∈ digits n) : c.isDigit = true :=
  Nat.isDigit_of_mem_toDigits (by omega) (by omega) h

/-- Reading the digits of a number gives the number back. -/
theorem readNat?_digits (n : Nat) : readNat? (digits n) = some n := by
  have hall : (digits n).all Char.isDigit = true :=
    List.all_eq_true.2 fun _ h => isDigit_of_mem_digits h
  have hne : (digits n).isEmpty = false := by
    simpa using digits_ne_nil n
  rw [readNat?, hall, hne]
  simp [digits, Nat.ofDigitChars_ten_toDigits]

/-- A numeral without a sign is read as a natural number. -/
theorem readInt?_of_digits (n : Nat) : readInt? (digits n) = some (n : Int) := by
  cases h : digits n with
  | nil => exact absurd h (digits_ne_nil n)
  | cons c rest =>
    have hc : c.isDigit = true := isDigit_of_mem_digits (n := n) (by simp [h])
    have hread := readNat?_digits n
    rw [h] at hread
    have hminus : c ≠ '-' := by rintro rfl; simp [Char.isDigit] at hc
    have hplus : c ≠ '+' := by rintro rfl; simp [Char.isDigit] at hc
    unfold readInt?
    split
    · simp_all
    · simp_all
    · simp [hread]

/-- Reading the numeral of an integer gives the integer back. -/
theorem readInt?_signed (z : Int) : readInt? (signed z) = some z := by
  cases z with
  | ofNat n => exact readInt?_of_digits n
  | negSucc n => simp [signed, readInt?, readNat?_digits, Int.negSucc_eq]

end Intcode.Decimal
