import Intcode.Machine.Basic

/-!
# What an instruction asks for

An instruction is executed in two stages. The first one, in this module, reads: it fetches and
decodes the word at the instruction pointer, looks up the operands, computes the result and resolves
the address to be written, and sums all this up as an `Action`. It depends on the instruction
pointer, the relative base and the tape alone, and its only effect is that the tape grows to keep
the cells that were read. The second stage carries the action out.

The order in which the first stage can fail is: fetching, decoding, then the parameters and operands
from left to right, then the arithmetic, then the address to be written.
-/
namespace Intcode

/-- A computation that reads a tape and may end in a fault; the tape may grow either way. -/
abbrev Access (α : Type) : Type := ExceptT Fault (StateM Tape) α

/-- What is left to do once an instruction's operands are known. -/
inductive Action where
  /-- Write a value to an address. -/
  | store (target value : Word)
  /-- Take an input value and write it to an address. -/
  | receive (target : Word)
  /-- Emit a value. -/
  | emit (value : Word)
  /-- Go on at an address. -/
  | jump (destination : UInt64)
  /-- Move the relative base. -/
  | rebase (base : Word)
  /-- Come to the end. -/
  | halt
  deriving DecidableEq

namespace Access

/-- Reads the word at an address on behalf of the instruction at `ip`. -/
def read (ip : UInt64) (address : Word) : Access Word := fun tape =>
  match tape.read address with
  | (.ok value, tape) => (.ok value, tape)
  | (.error refusal, tape) => (.error (refusal.fault ip), tape)

/-- The value, or an overflow of the instruction at `ip` if there is none. -/
def inRange (ip : UInt64) : Option Word → Access Word
  | some value => pure value
  | none => throw (.overflow ip)

/-- The parameter with a given index of the instruction at `ip`. -/
def parameter (ip : UInt64) (k : Nat) : Access Word :=
  read ip (Word.ofCount (ip + 1 + UInt64.ofNat k))

/-- The value of the operand with a given index. -/
def operand (ip : UInt64) (base : Word) (i : Instruction) (k : Nat) : Access Word := do
  let param ← parameter ip k
  match i.mode k with
  | .immediate => pure param
  | .position => read ip param
  | .relative => read ip (← inRange ip (base.add? param))

/-- The address that the operand with a given index names as the place to write to. -/
def target (ip : UInt64) (base : Word) (i : Instruction) (k : Nat) : Access Word := do
  let param ← parameter ip k
  match i.mode k with
  | .position => pure param
  | .relative => inRange ip (base.add? param)
  | .immediate => throw (.decode ip (.immediateWrite i.opcode))

/-- The instruction at `ip`. -/
def fetch (ip : UInt64) : Access Instruction := do
  match Instruction.decode (← read ip (Word.ofCount ip)) with
  | .ok i => pure i
  | .error cause => throw (.decode ip cause)

/-- Stores what a function makes of the first two operands. -/
def combine (ip : UInt64) (base : Word) (i : Instruction) (f : Word → Word → Option Word) :
    Access Action := do
  let a ← operand ip base i 0
  let b ← operand ip base i 1
  let value ← inRange ip (f a b)
  let address ← target ip base i 2
  pure (.store address value)

/-- Goes on at the second operand if the first one passes a test, else behind the instruction. -/
def branch (ip : UInt64) (base : Word) (i : Instruction) (test : Word → Bool) : Access Action := do
  let condition ← operand ip base i 0
  let destination ← operand ip base i 1
  if test condition then
    match destination.toCount? with
    | some ip' => pure (.jump ip')
    | none => throw (.negativeJump destination ip)
  else pure (.jump (ip + UInt64.ofNat i.width))

/-- What an instruction at `ip` asks for. -/
def resolve (ip : UInt64) (base : Word) (i : Instruction) : Access Action :=
  match i.opcode with
  | .add => combine ip base i Word.add?
  | .mul => combine ip base i Word.mul?
  | .lessThan => combine ip base i fun a b => some (a.less b)
  | .equals => combine ip base i fun a b => some (a.same b)
  | .input => return .receive (← target ip base i 0)
  | .output => return .emit (← operand ip base i 0)
  | .jumpIfTrue => branch ip base i fun a => a.toInt ≠ 0
  | .jumpIfFalse => branch ip base i fun a => a.toInt = 0
  | .adjustRelativeBase => do
    let offset ← operand ip base i 0
    return .rebase (← inRange ip (base.add? offset))
  | .halt => return .halt

/-- The instruction at `ip` and what it asks for. -/
def prepare (ip : UInt64) (base : Word) : Access (Instruction × Action) := do
  let i ← fetch ip
  return (i, ← resolve ip base i)

end Access

end Intcode
