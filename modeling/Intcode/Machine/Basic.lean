import Intcode.Fault
import Intcode.Listing

/-!
# Machines

The state of a machine and the operations on it that execute nothing: building one from a program,
queuing input, looking at and changing memory, and going back to the beginning.

A machine keeps its own queue of inputs, which it uses up before it asks anything outside. It counts
the instructions it has executed and refuses to execute more than its step limit. If it is tracing,
it notes every instruction that it has executed as a `TraceEntry`.
-/
namespace Intcode

/-- What the most recent instruction left behind. -/
inductive Status where
  /-- The machine can go on. -/
  | running
  /-- The machine stands at an input instruction for which there is no value. -/
  | needsInput
  /-- The machine has just emitted a value and can go on. -/
  | hasOutput (value : Word)
  /-- The machine has come to its end. -/
  | halted
  deriving DecidableEq

/-- An executed instruction as it was when it was about to be executed. -/
structure TraceEntry where
  /-- The address of the instruction. -/
  ip : UInt64
  /-- The instruction. -/
  instruction : Instruction
  /-- The words that followed it. -/
  params : List Word
  /-- The relative base. -/
  relativeBase : Word
  deriving DecidableEq

/-- The line of a trace that shows an executed instruction. -/
def TraceEntry.line (e : TraceEntry) : List Char :=
  '[' :: Decimal.padded 4 e.ip.toNat ++ [']', ' '] ++ e.instruction.render e.params ++
    [' ', ' ', 'r', 'b', '='] ++ e.relativeBase.chars

/-- The state of a machine. -/
structure Machine where
  /-- The image that the memory started with. -/
  program : Program
  /-- The memory. -/
  tape : Tape
  /-- The address of the next instruction. -/
  ip : UInt64
  /-- The address that relative operands count from. -/
  relativeBase : Word
  /-- What the most recent instruction left behind. -/
  status : Status
  /-- The values that have been queued as input. -/
  inputs : List Word
  /-- The value that was emitted last. -/
  lastOutput : Option Word
  /-- The number of instructions executed so far. -/
  steps : UInt64
  /-- The number of instructions that may be executed in all. -/
  stepLimit : UInt64
  /-- Whether executed instructions are noted. -/
  tracing : Bool
  /-- The executed instructions that have been noted. -/
  trace : Array TraceEntry
  deriving DecidableEq

/-- The limits under which a machine is built. -/
structure Machine.Settings where
  /-- The number of instructions that may be executed in all. -/
  stepLimit : UInt64 := 100000000
  /-- The first address that is out of reach. -/
  memoryLimit : UInt64 := 16777216
  /-- Whether executed instructions are noted. -/
  tracing : Bool := false
  deriving DecidableEq

namespace Machine

/-- A machine that is about to execute the first instruction of a program. -/
def boot (program : Program) (settings : Settings) : Machine where
  program := program
  tape := ⟨program.cells, settings.memoryLimit⟩
  ip := 0
  relativeBase := 0
  status := .running
  inputs := []
  lastOutput := none
  steps := 0
  stepLimit := settings.stepLimit
  tracing := settings.tracing
  trace := #[]

/-- Tells whether the machine has come to its end. -/
def isHalted (m : Machine) : Bool := m.status = .halted

/-- The number of instructions that may still be executed. -/
def remaining (m : Machine) : Nat := m.stepLimit.toNat - m.steps.toNat

/-- Queues input values in order. A machine that was waiting for input can go on then. A machine that
has come to its end takes no value. -/
def provideAll (values : List Word) (m : Machine) : Except Fault Machine :=
  if values.isEmpty then .ok m
  else if m.status = .halted then .error .halted
  else
    .ok { m with
      inputs := m.inputs ++ values
      status := if m.status = .needsInput then .running else m.status }

/-- Queues one input value. -/
def provide (value : Word) (m : Machine) : Except Fault Machine := m.provideAll [value]

/-- To queue some values and then more is to queue all of them. -/
theorem provideAll_append (values more : List Word) (m : Machine) :
    m.provideAll (values ++ more) = (m.provideAll values).bind fun m' => m'.provideAll more := by
  unfold provideAll
  cases values with
  | nil => rfl
  | cons value rest =>
    by_cases hhalted : m.status = .halted
    · simp [hhalted, Except.bind]
    · cases more with
      | nil => simp [hhalted, Except.bind]
      | cons next others =>
        by_cases hneeds : m.status = .needsInput <;> simp [hhalted, hneeds, Except.bind]

/-- Looks at a word in memory. -/
def peek? (m : Machine) (address : Word) : Except Fault Word :=
  (m.tape.peek? address).mapError (Refusal.fault m.ip)

/-- Changes a word in memory. -/
def poke (address value : Word) (m : Machine) : Except Fault Unit × Machine :=
  let (answer, tape) := m.tape.write address value
  (answer.mapError (Refusal.fault m.ip), { m with tape })

/-- The machine as it was when it was built, but with its present limits. -/
def reset (m : Machine) : Machine :=
  boot m.program ⟨m.stepLimit, m.tape.limit, m.tracing⟩

/-- The entry that a trace gets for an instruction which is about to be executed. A parameter that
cannot be looked at is shown as zero. -/
def traceEntry (m : Machine) (i : Instruction) : TraceEntry where
  ip := m.ip
  instruction := i
  params := (List.range i.opcode.arity).map fun k =>
    match m.tape.peek? (Word.ofCount (m.ip + 1 + UInt64.ofNat k)) with
    | .ok value => value
    | .error _ => 0
  relativeBase := m.relativeBase

/-- The lines of the trace. -/
def traceLines (m : Machine) : List String :=
  m.trace.toList.map fun entry => String.ofList entry.line

end Machine

end Intcode
