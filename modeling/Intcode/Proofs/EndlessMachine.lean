import Intcode.Machine.Step
import Intcode.Proofs.EndlessTape

/-!
# Machines on endless tapes

The textbook machine: its memory holds a word at every place, so reading never changes it, and one
instruction is a computation in `Except Fault` whose lines stand in the order in which they can
fail: the step limit, fetching, decoding, the parameters and operands from left to right, the
arithmetic, the address to be written, and the writing.

`EndlessMachine.react` says what an instruction comes to before the outside world has its say, and
`EndlessMachine.execute` carries it out against a port.  The module `StepRefinement` proves that
a `Machine` does the same, whatever number of cells it keeps.
-/

namespace Intcode

/-- The state of a machine whose memory is an endless tape. -/
structure EndlessMachine where
  /-- The memory. -/
  tape : EndlessTape
  /-- The address of the next instruction. -/
  ip : UInt64
  /-- The address that relative operands count from. -/
  relativeBase : Word
  /-- What the most recent instruction left behind. -/
  status : Status
  /-- The values that have been queued as input. -/
  inputs : List Word
  /-- The value that was emitted last. -/
  lastOutput : Option Word
  /-- The number of instructions executed so far. -/
  steps : UInt64
  /-- The number of instructions that may be executed in all. -/
  stepLimit : UInt64
  /-- Whether executed instructions are noted. -/
  tracing : Bool
  /-- The executed instructions that have been noted. -/
  trace : Array TraceEntry

/-- What a machine shows of itself: all but the number of cells that it keeps. -/
def Machine.endless (m : Machine) : EndlessMachine where
  tape := m.tape.endless
  ip := m.ip
  relativeBase := m.relativeBase
  status := m.status
  inputs := m.inputs
  lastOutput := m.lastOutput
  steps := m.steps
  stepLimit := m.stepLimit
  tracing := m.tracing
  trace := m.trace

namespace EndlessMachine

/-- What an instruction comes to.  A machine that is given along is the one behind the
instruction. -/
inductive Effect where
  /-- The machine goes on. -/
  | go (next : EndlessMachine)
  /-- The machine comes to its end. -/
  | halt (next : EndlessMachine)
  /-- The machine emits a value and goes on, unless the value is not taken. -/
  | emit (value : Word) (next : EndlessMachine)
  /-- The machine needs an input value, and goes on with it or faults over it. -/
  | ask (resume : Word → Except Fault EndlessMachine)

variable {σ : Type}

/-! ## Operands -/

/-- The word at an address. -/
def load (m : EndlessMachine) (address : Word) : Except Fault Word :=
  (m.tape.read address).mapError (Refusal.fault m.ip)

/-- The exact result of an operation, which has to be a word. -/
def exact (m : EndlessMachine) (result : Option Word) : Except Fault Word :=
  result.elim (.error (.overflow m.ip)) .ok

/-- The parameter with a given index. -/
def parameter (m : EndlessMachine) (k : Nat) : Except Fault Word :=
  m.load (Word.ofCount (m.ip + 1 + UInt64.ofNat k))

/-- The value of the operand with a given index. -/
def operand (m : EndlessMachine) (i : Instruction) (k : Nat) : Except Fault Word := do
  let param ← m.parameter k
  match i.mode k with
  | .immediate => return param
  | .position => m.load param
  | .relative =>
    let address ← m.exact (m.relativeBase.add? param)
    m.load address

/-- The address that the operand with a given index names as the place to write to. -/
def target (m : EndlessMachine) (i : Instruction) (k : Nat) : Except Fault Word := do
  let param ← m.parameter k
  match i.mode k with
  | .relative => m.exact (m.relativeBase.add? param)
  | _ => return param

/-! ## Instructions -/

/-- The instruction at which the machine stands. -/
def fetch (m : EndlessMachine) : Except Fault Instruction := do
  let word ← m.load (Word.ofCount m.ip)
  (Instruction.decode word).mapError (Fault.decode m.ip)

/-- The entry that a trace gets for an instruction; a parameter out of reach is shown as zero. -/
def entry (m : EndlessMachine) (i : Instruction) : TraceEntry where
  ip := m.ip
  instruction := i
  params := (List.range i.opcode.arity).map fun k =>
    let address := (Word.ofCount (m.ip + 1 + UInt64.ofNat k)).toInt
    if 0 ≤ address ∧ address.toNat < m.tape.limit.toNat then m.tape.cell address.toNat else 0
  relativeBase := m.relativeBase

/-- The machine with an instruction counted and noted, about to go on at an address. -/
def advance (m : EndlessMachine) (i : Instruction) (ip : UInt64) : EndlessMachine :=
  { m with
    ip := ip
    status := .running
    steps := m.steps + 1
    trace := if m.tracing then m.trace.push (m.entry i) else m.trace }

/-- Writes a value and goes on at an address. -/
def store (m : EndlessMachine) (i : Instruction) (ip : UInt64) (target value : Word) :
    Except Fault EndlessMachine := do
  let tape ← (m.tape.write target value).mapError (Refusal.fault m.ip)
  return { m.advance i ip with tape := tape }

/-- Stores what an operation makes of the first two operands. -/
def compute (m : EndlessMachine) (i : Instruction) (operation : Word → Word → Option Word) :
    Except Fault Effect := do
  let a ← m.operand i 0
  let b ← m.operand i 1
  let value ← m.exact (operation a b)
  let target ← m.target i 2
  let next ← m.store i (m.ip + 4) target value
  return .go next

/-- Goes on at the second operand if the first one passes a test. -/
def branch (m : EndlessMachine) (i : Instruction) (test : Word → Bool) : Except Fault Effect := do
  let condition ← m.operand i 0
  let destination ← m.operand i 1
  if test condition then
    match destination.toCount? with
    | some ip => return .go (m.advance i ip)
    | none => throw (.negativeJump destination m.ip)
  else return .go (m.advance i (m.ip + 3))

/-- What an instruction comes to. -/
def effect (m : EndlessMachine) (i : Instruction) : Except Fault Effect :=
  match i.opcode with
  | .add => m.compute i Word.add?
  | .mul => m.compute i Word.mul?
  | .lessThan => m.compute i fun a b => some (a.less b)
  | .equals => m.compute i fun a b => some (a.same b)
  | .jumpIfTrue => m.branch i fun a => a.toInt ≠ 0
  | .jumpIfFalse => m.branch i fun a => a.toInt = 0
  | .input => do
    let target ← m.target i 0
    return .ask (m.store i (m.ip + 2) target)
  | .output => do
    let value ← m.operand i 0
    return .emit value { m.advance i (m.ip + 2) with lastOutput := some value }
  | .adjustRelativeBase => do
    let offset ← m.operand i 0
    let base ← m.exact (m.relativeBase.add? offset)
    return .go { m.advance i (m.ip + 2) with relativeBase := base }
  | .halt => return .halt (m.advance i m.ip)

/-- What the instruction comes to at which the machine stands, unless it has no step left. -/
def react (m : EndlessMachine) : Except Fault Effect :=
  if m.stepLimit ≤ m.steps then .error (.stepLimit m.stepLimit)
  else do
    let i ← m.fetch
    m.effect i

/-! ## Execution -/

/-- The answer of a machine with what has become of the machine and of the port. -/
abbrev Result (σ : Type) : Type := Except Fault Status × EndlessMachine × σ

/-- Goes on with an input value.  A value that cannot be stored is lost. -/
def receive (m : EndlessMachine) (resumed : Except Fault EndlessMachine) (s : σ) : Result σ :=
  match resumed with
  | .ok next => (.ok .running, { next with inputs := m.inputs, status := .running }, s)
  | .error fault => (.error fault, m, s)

/-- Carries out what an instruction has come to.  An input is taken from the machine's own queue,
and from the port if nothing is queued. -/
def carryOut (port : Port σ) (m : EndlessMachine) (outcome : Except Fault Effect) (s : σ) :
    Result σ :=
  match outcome with
  | .error fault => (.error fault, m, s)
  | .ok (.go next) => (.ok .running, { next with status := .running }, s)
  | .ok (.halt next) => (.ok .halted, { next with status := .halted }, s)
  | .ok (.emit value next) =>
    match port.send value s with
    | (.ok (), s) => (.ok (.hasOutput value), { next with status := .hasOutput value }, s)
    | (.error fault, s) => (.error fault, m, s)
  | .ok (.ask resume) =>
    match m.inputs with
    | value :: rest => receive { m with inputs := rest } (resume value) s
    | [] =>
      match port.receive s with
      | (.ok (some value), s) => receive m (resume value) s
      | (.ok none, s) => (.ok .needsInput, { m with status := .needsInput }, s)
      | (.error fault, s) => (.error fault, m, s)

/-- Executes the instruction at which the machine stands. -/
def execute (port : Port σ) (m : EndlessMachine) (s : σ) : Result σ :=
  if m.status = .halted then (.ok .halted, m, s) else carryOut port m m.react s

/-- Executes one instruction with no input but the machine's own queue. -/
def step (m : EndlessMachine) : Except Fault Status × EndlessMachine :=
  let (answer, next, _) := m.execute Port.detached ()
  (answer, next)

end EndlessMachine

end Intcode
