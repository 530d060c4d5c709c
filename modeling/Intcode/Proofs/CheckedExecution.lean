import Intcode.Machine.Step

/-!
# Execution in exact numbers

The execution of an instruction once more, with no number that wraps around and no index that is
silently out of range.  Where `Machine.execute` adds unsigned numbers or takes one of them for a
word, the exact sum is formed here, and it has to fit.  Where it falls back to something else behind
the last cell or the last mode, there has to be a cell or a mode.  What does not fit is a `Hazard`,
and a hazard leaves nothing behind, neither an answer nor a machine.

A fault is not a hazard but an answer.  In particular a result of arithmetic which is no word is a
fault (`Checked.inRange`), and so is an instruction pointer that would be negative as a word: it is
refused before anything is added to it (`Checked.fetch`).  A tape that would have to keep
`Tape.capacity` cells is refused, too, before its size is formed.

Everything is done in the order in which it is done on the way through an instruction.  An entry of
the trace is made as soon as the instruction is decoded, and the address behind the instruction is
formed when the instruction has been carried out.
-/

namespace Intcode

/-- What must not happen while an instruction is executed. -/
inductive Hazard where
  /-- An unsigned number does not fit in 64 bits. -/
  | count (number : Nat)
  /-- A signed number that is not a result of the program does not fit in 64 bits. -/
  | word (number : Int)
  /-- There is no cell with this index. -/
  | cell (index : Nat)
  /-- There is no mode with this index. -/
  | mode (index : Nat)
  /-- An instruction is to write to a value, although it has been decoded. -/
  | immediateTarget (opcode : Opcode)
  deriving DecidableEq

namespace Checked

variable {σ : Type}

/-! ## Numbers and modes -/

/-- An unsigned number, which has to fit in 64 bits. -/
def count (n : Nat) : Except Hazard UInt64 :=
  if n < UInt64.size then .ok (UInt64.ofNat n) else .error (.count n)

/-- A signed number, which has to fit in 64 bits. -/
def word (n : Int) : Except Hazard Word :=
  match Word.ofInt? n with
  | some w => .ok w
  | none => .error (.word n)

/-- The quotient and the remainder of a word, which have to be words. -/
def divide (w : Word) (d : Int) : Except Hazard (Word × Word) := do
  return (← word (w.toInt.tdiv d), ← word (w.toInt.tmod d))

/-- The mode with a given index, which has to be there. -/
def mode (i : Instruction) (k : Nat) : Except Hazard Mode :=
  match i.modes[k]? with
  | some mode => .ok mode
  | none => .error (.mode k)

/-! ## Decoding -/

/-- A computation that may find a word to be no instruction. -/
abbrev Decoding (α : Type) : Type := ExceptT DecodeError (Except Hazard) α

/-- The mode of one parameter and the digits above it.  They are divided only for a parameter that
the opcode has. -/
def slot (opcode : Opcode) (param : Nat) (digits : Word) : Decoding (Mode × Word) :=
  if param < opcode.arity then do
    let (rest, digit) ← divide digits 10
    match Mode.ofDigit? digit.toInt with
    | some mode => return (mode, rest)
    | none => throw (.invalidMode digit.toInt param)
  else return (.position, digits)

/-- Refuses an instruction that would write to a value. -/
def checkTarget (i : Instruction) : Decoding Instruction :=
  match i.opcode.writeParam? with
  | some param => do
    if (← mode i param) = .immediate then throw (.immediateWrite i.opcode) else return i
  | none => return i

/-- The instruction that a word stands for. -/
def decode (w : Word) : Decoding Instruction := do
  let (digits, code) ← divide w 100
  match Opcode.ofCode? code.toInt with
  | some opcode =>
    let (first, digits) ← slot opcode 0 digits
    let (second, digits) ← slot opcode 1 digits
    let (third, _) ← slot opcode 2 digits
    checkTarget ⟨opcode, first, second, third⟩
  | none => throw (.unknownOpcode code.toInt)

/-! ## The tape -/

/-- The place of an address, with the tape grown to keep a cell there. -/
def keep (t : Tape) (address : Word) : Except Hazard (Except Refusal Nat × Tape) :=
  match t.reach address with
  | .error refusal => return (.error refusal, t)
  | .ok place => do
    let _ ← count (place + 1)
    return (.ok place, t.extend place)

/-- Reads the word at an address from its cell, which has to be there. -/
def readCell (t : Tape) (address : Word) : Except Hazard (Except Refusal Word × Tape) := do
  match ← keep t address with
  | (.error refusal, t) => return (.error refusal, t)
  | (.ok place, t) =>
    match t.cells[place]? with
    | some value => return (.ok value, t)
    | none => throw (.cell place)

/-- Writes a word into the cell at an address, which has to be there. -/
def writeCell (t : Tape) (address value : Word) : Except Hazard (Except Refusal Unit × Tape) := do
  match ← keep t address with
  | (.error refusal, t) => return (.error refusal, t)
  | (.ok place, t) =>
    if place < t.cells.size then return (.ok (), t.put place value) else throw (.cell place)

/-! ## What an instruction asks for -/

/-- A computation that reads a tape and may end in a fault. -/
abbrev Reading (α : Type) : Type := ExceptT Fault (StateT Tape (Except Hazard)) α

/-- Reads the word at an address on behalf of the instruction at `ip`. -/
def read (ip : UInt64) (address : Word) : Reading Word := fun tape => do
  match ← readCell tape address with
  | (.ok value, tape) => return (.ok value, tape)
  | (.error refusal, tape) => return (.error (refusal.fault ip), tape)

/-- A result of the instruction at `ip`, or an overflow if the exact number is no word. -/
def inRange (ip : UInt64) (n : Int) : Reading Word :=
  match Word.ofInt? n with
  | some w => return w
  | none => throw (.overflow ip)

/-- The address of the parameter with a given index. -/
def parameterAddress (ip : UInt64) (k : Nat) : Except Hazard Word := do
  let next ← count (ip.toNat + 1)
  let place ← count (next.toNat + k)
  word place.toNat

/-- The parameter with a given index of the instruction at `ip`. -/
def parameter (ip : UInt64) (k : Nat) : Reading Word := do
  read ip (← parameterAddress ip k)

/-- The value of the operand with a given index. -/
def operand (ip : UInt64) (base : Word) (i : Instruction) (k : Nat) : Reading Word := do
  let param ← parameter ip k
  match ← mode i k with
  | .immediate => return param
  | .position => read ip param
  | .relative => read ip (← inRange ip (base.toInt + param.toInt))

/-- The address that the operand with a given index names as the place to write to. -/
def target (ip : UInt64) (base : Word) (i : Instruction) (k : Nat) : Reading Word := do
  let param ← parameter ip k
  match ← mode i k with
  | .position => return param
  | .relative => inRange ip (base.toInt + param.toInt)
  | .immediate => throwThe Hazard (.immediateTarget i.opcode)

/-- The instruction at `ip`. -/
def fetch (ip : UInt64) : Reading Instruction :=
  if 9223372036854775808 ≤ ip.toNat then throw (.negativeAddress (Word.ofCount ip) ip)
  else do
    let w ← read ip (← word ip.toNat)
    match ← (decode w).run with
    | .ok i => return i
    | .error cause => throw (.decode ip cause)

/-- Stores what a function makes of the first two operands. -/
def combine (ip : UInt64) (base : Word) (i : Instruction) (f : Int → Int → Int) :
    Reading Action := do
  let a ← operand ip base i 0
  let b ← operand ip base i 1
  let value ← inRange ip (f a.toInt b.toInt)
  let address ← target ip base i 2
  return .store address value

/-- Goes on at the second operand if the first one passes a test, else behind the instruction. -/
def branch (ip : UInt64) (base : Word) (i : Instruction) (test : Word → Bool) :
    Reading Action := do
  let condition ← operand ip base i 0
  let destination ← operand ip base i 1
  if test condition then
    if destination.toInt < 0 then throw (.negativeJump destination ip)
    else return .jump (← count destination.toInt.toNat)
  else return .jump (← count (ip.toNat + i.width))

/-- What an instruction at `ip` asks for. -/
def resolve (ip : UInt64) (base : Word) (i : Instruction) : Reading Action :=
  match i.opcode with
  | .add => combine ip base i fun a b => a + b
  | .mul => combine ip base i fun a b => a * b
  | .lessThan => combine ip base i fun a b => if a < b then 1 else 0
  | .equals => combine ip base i fun a b => if a = b then 1 else 0
  | .input => return .receive (← target ip base i 0)
  | .output => return .emit (← operand ip base i 0)
  | .jumpIfTrue => branch ip base i fun a => a.toInt ≠ 0
  | .jumpIfFalse => branch ip base i fun a => a.toInt = 0
  | .adjustRelativeBase => do
    let offset ← operand ip base i 0
    return .rebase (← inRange ip (base.toInt + offset.toInt))
  | .halt => return .halt

/-! ## The instruction as a whole -/

/-- The entry that a trace gets for an instruction which is about to be executed.  Every parameter
is shown in its mode. -/
def traceEntry (m : Machine) (i : Instruction) : Except Hazard TraceEntry := do
  let params ← (List.range i.opcode.arity).mapM fun k => do
    let address ← parameterAddress m.ip k
    let _ ← mode i k
    match m.tape.peek? address with
    | .ok value => return value
    | .error _ => return 0
  return ⟨m.ip, i, params, m.relativeBase⟩

/-- The entry for an instruction, if the machine is tracing. -/
def note (m : Machine) (i : Instruction) : Except Hazard (Option TraceEntry) :=
  if m.tracing then some <$> traceEntry m i else return none

/-- Ends an instruction: notes it, counts it and goes on at `ip`. -/
def complete (note : Option TraceEntry) (ip : UInt64) (status : Status) (m : Machine) :
    Except Hazard Machine := do
  return { m.complete note ip status with steps := ← count (m.steps.toNat + 1) }

/-- Ends an instruction and goes on behind it. -/
def proceed (note : Option TraceEntry) (i : Instruction) (status : Status) (m : Machine) :
    Except Hazard Machine := do
  complete note (← count (m.ip.toNat + i.width)) status m

/-- Writes a value and, unless the tape refuses it, ends the instruction. -/
def storing (note : Option TraceEntry) (i : Instruction) (target value : Word) (m : Machine)
    (s : σ) : Except Hazard (Turn Status σ) := do
  match ← writeCell m.tape target value with
  | (.ok (), tape) => return ⟨.ok .running, ← proceed note i .running { m with tape := tape }, s⟩
  | (.error refusal, tape) => return ⟨.error (refusal.fault m.ip), { m with tape := tape }, s⟩

/-- Carries out what an instruction asks for. -/
def perform (port : Port σ) (note : Option TraceEntry) (i : Instruction) (action : Action)
    (m : Machine) (s : σ) : Except Hazard (Turn Status σ) :=
  match action with
  | .store target value => storing note i target value m s
  | .receive target =>
    match m.inputs with
    | value :: rest => storing note i target value { m with inputs := rest } s
    | [] =>
      match port.receive s with
      | (.ok (some value), s) => storing note i target value m s
      | (.ok none, s) => return ⟨.ok .needsInput, { m with status := .needsInput }, s⟩
      | (.error fault, s) => return ⟨.error fault, m, s⟩
  | .emit value => do
    match port.send value s with
    | (.ok (), s) =>
      return ⟨.ok (.hasOutput value),
        ← proceed note i (.hasOutput value) { m with lastOutput := some value }, s⟩
    | (.error fault, s) => return ⟨.error fault, m, s⟩
  | .jump destination => return ⟨.ok .running, ← complete note destination .running m, s⟩
  | .rebase base =>
    return ⟨.ok .running, ← proceed note i .running { m with relativeBase := base }, s⟩
  | .halt => return ⟨.ok .halted, ← complete note m.ip .halted m, s⟩

/-- Executes the instruction at which the machine stands. -/
def execute (port : Port σ) (m : Machine) (s : σ) : Except Hazard (Turn Status σ) :=
  if m.status = .halted then return ⟨.ok .halted, m, s⟩
  else if m.stepLimit ≤ m.steps then return ⟨.error (.stepLimit m.stepLimit), m, s⟩
  else do
    match ← (fetch m.ip).run m.tape with
    | (.error fault, tape) => return ⟨.error fault, { m with tape := tape }, s⟩
    | (.ok i, fetched) =>
      let entry ← note { m with tape := fetched } i
      match ← (resolve m.ip m.relativeBase i).run fetched with
      | (.error fault, tape) => return ⟨.error fault, { m with tape := tape }, s⟩
      | (.ok action, tape) => perform port entry i action { m with tape := tape } s

end Checked

end Intcode
