import Mathlib.Logic.Basic
import Intcode.Machine.Run
import Intcode.Snapshot

/-!
# Operations on machines

All that can be asked of a machine from the outside, with the answer that it gives (`Operation`,
`Operation.perform`), and sequences of such operations (`Machine.afterAll`).

A machine never looks at its trace.  What it does is the same whatever lines it has noted before,
and the lines that it notes come behind them (`Operation.perform_behind`); only going back to the
beginning throws them away.
-/

namespace Intcode

namespace Machine

/-! ## Operations and their answers -/

/-- Something that can be asked of a machine. -/
inductive Operation : Type 1 where
  /-- Execute one instruction. -/
  | step
  /-- Queue some values and run until the machine stops. -/
  | run (inputs : List Word)
  /-- Run against a port until the machine stops. -/
  | runWith {σ : Type} (port : Port σ) (s : σ)
  /-- Queue a value. -/
  | provide (value : Word)
  /-- Queue some values. -/
  | provideAll (values : List Word)
  /-- Look at a word in memory. -/
  | peek (address : Word)
  /-- Change a word in memory. -/
  | poke (address value : Word)
  /-- Go back to the beginning. -/
  | reset
  /-- Change the number of instructions that may be executed in all. -/
  | limitSteps (limit : UInt64)
  /-- Take a snapshot. -/
  | snapshot
  /-- Put a snapshot into the machine. -/
  | restore (s : Snapshot)

namespace Operation

/-- What an operation answers. -/
def Answer : Operation → Type
  | step => Except Fault Status
  | run _ => Except Fault Outcome
  | @runWith σ _ _ => Except Fault Stop × σ
  | provide _ | provideAll _ | poke _ _ => Except Fault Unit
  | peek _ => Except Fault Word
  | snapshot => Snapshot
  | reset | limitSteps _ | restore _ => Unit

/-- The machine that has taken some values, or the machine as it was if they were refused. -/
def taking (m : Machine) : Except Fault Machine → Except Fault Unit × Machine
  | .ok m' => (.ok (), m')
  | .error fault => (.error fault, m)

/-- The answer to an operation and the machine afterwards. -/
def perform : (op : Operation) → Machine → op.Answer × Machine
  | step, m => (m.step.answer, m.step.machine)
  | run inputs, m => m.run inputs
  | runWith port s, m =>
    (((m.runWith port s).answer, (m.runWith port s).port), (m.runWith port s).machine)
  | provide value, m => taking m (m.provide value)
  | provideAll values, m => taking m (m.provideAll values)
  | peek address, m => (m.peek? address, m)
  | poke address value, m => m.poke address value
  | reset, m => ((), m.reset)
  | limitSteps limit, m => ((), { m with stepLimit := limit })
  | snapshot, m => (m.snapshot, m)
  | restore s, m => ((), m.restore s)

/-- Tells whether an operation throws away what has been noted. -/
def clearsTrace : Operation → Bool
  | reset => true
  | _ => false

/-- Values that a machine is given are refused, or they are queued and it does not wait any more. -/
lemma taking_cases (m : Machine) (values : List Word) :
    (taking m (m.provideAll values)).2 = m ∨
      m.status ≠ .halted ∧ (taking m (m.provideAll values)).2 = { m with
        inputs := m.inputs ++ values
        status := if m.status = .needsInput then .running else m.status } := by
  unfold Machine.provideAll
  by_cases hempty : values.isEmpty
  · rw [if_pos hempty]
    exact Or.inl rfl
  by_cases hhalted : m.status = .halted
  · rw [if_neg hempty, if_pos hhalted]
    exact Or.inl rfl
  · rw [if_neg hempty, if_neg hhalted]
    exact Or.inr ⟨hhalted, rfl⟩

end Operation

/-- The machine after some operations, the first one first. -/
def afterAll (m : Machine) (ops : List Operation) : Machine :=
  ops.foldl (fun m op => (op.perform m).2) m

/-! ## Lines that were noted before -/

/-- The machine with other entries in front of its trace. -/
def behind (earlier : Array TraceEntry) (m : Machine) : Machine :=
  { m with trace := earlier ++ m.trace }

/-- The machine with an empty trace. -/
def untraced (m : Machine) : Machine := { m with trace := #[] }

/-- A machine is what it is with an empty trace, behind the entries of its trace. -/
lemma behind_untraced (m : Machine) : m.untraced.behind m.trace = m := by
  unfold behind untraced
  rw [Array.append_empty]

/-- Nothing in front of a trace makes no difference. -/
lemma behind_empty (m : Machine) : m.behind #[] = m := by
  unfold behind
  rw [Array.empty_append]

end Machine

/-- The turn of a machine with other entries in front of its trace. -/
def Turn.behind {α σ : Type} (earlier : Array TraceEntry) (turn : Turn α σ) : Turn α σ :=
  { turn with machine := turn.machine.behind earlier }

namespace Machine

variable {σ : Type} (earlier : Array TraceEntry) (m : Machine)

lemma complete_behind (note : Option TraceEntry) (ip : UInt64) (status : Status) :
    (m.behind earlier).complete note ip status = (m.complete note ip status).behind earlier := by
  cases note with
  | none => rfl
  | some entry =>
    have htrace : (earlier ++ m.trace).push entry = earlier ++ m.trace.push entry :=
      Array.append_push.symm
    unfold complete behind
    simp only [htrace]

lemma storing_behind (note : Option TraceEntry) (ip : UInt64) (target value : Word) (s : σ) :
    (m.behind earlier).storing note ip target value s =
      (m.storing note ip target value s).behind earlier := by
  have htape : (m.behind earlier).tape = m.tape := rfl
  unfold storing
  rw [htape]
  rcases m.tape.write target value with ⟨refusal | written, tape⟩
  · rfl
  · have hcomplete := complete_behind earlier { m with tape := tape } note ip .running
    exact congrArg (fun machine => (⟨.ok .running, machine, s⟩ : Turn Status σ)) hcomplete

/-- The machine that is left when an action is complete comes behind the same entries. -/
lemma perform_behind (port : Port σ) (i : Instruction) (action : Action) (s : σ) :
    (m.behind earlier).perform port i action s = (m.perform port i action s).behind earlier := by
  -- What is noted of the instruction does not depend on the trace.
  have hnote : (if m.tracing then some ((m.behind earlier).traceEntry i) else none) =
      if m.tracing then some (m.traceEntry i) else none := rfl
  have hcomplete (m : Machine) (ip : UInt64) (status : Status) :=
    complete_behind earlier m (if m.tracing then some (m.traceEntry i) else none) ip status
  cases action with
  | store target value => exact storing_behind earlier m _ _ target value s
  | receive target =>
    have hinputs : (m.behind earlier).inputs = m.inputs := rfl
    unfold perform
    simp only [hinputs]
    cases m.inputs with
    | cons value rest =>
      exact storing_behind earlier { m with inputs := rest } _ _ target value s
    | nil =>
      rcases port.receive s with ⟨fault | (_ | value), s'⟩
      · rfl
      · rfl
      · exact storing_behind earlier m _ _ target value s'
  | emit value =>
    unfold perform
    simp only
    rcases port.send value s with ⟨fault | sent, s'⟩
    · rfl
    · have hemitted := complete_behind earlier { m with lastOutput := some value }
        (if m.tracing then some (m.traceEntry i) else none) (m.ip + UInt64.ofNat i.width)
        (.hasOutput value)
      exact congrArg (fun machine => (⟨.ok (.hasOutput value), machine, s'⟩ : Turn Status σ))
        hemitted
  | jump destination =>
    have hjumped := hcomplete m destination .running
    exact congrArg (fun machine => (⟨.ok .running, machine, s⟩ : Turn Status σ)) hjumped
  | rebase base =>
    have hrebased := complete_behind earlier { m with relativeBase := base }
      (if m.tracing then some (m.traceEntry i) else none) (m.ip + UInt64.ofNat i.width) .running
    exact congrArg (fun machine => (⟨.ok .running, machine, s⟩ : Turn Status σ)) hrebased
  | halt =>
    have hhalted := hcomplete m m.ip .halted
    exact congrArg (fun machine => (⟨.ok .halted, machine, s⟩ : Turn Status σ)) hhalted

/-- An instruction does the same whatever has been noted before it. -/
lemma execute_behind (port : Port σ) (s : σ) :
    (m.behind earlier).execute port s = (m.execute port s).behind earlier := by
  unfold execute
  change (if m.status = .halted then _ else if m.stepLimit ≤ m.steps then _ else _) = _
  by_cases hhalted : m.status = .halted
  · rw [if_pos hhalted, if_pos hhalted]
    rfl
  · rw [if_neg hhalted, if_neg hhalted]
    by_cases hlimit : m.stepLimit ≤ m.steps
    · rw [if_pos hlimit, if_pos hlimit]
      rfl
    · rw [if_neg hlimit, if_neg hlimit]
      have hprepare : (Access.prepare (m.behind earlier).ip (m.behind earlier).relativeBase).run
          (m.behind earlier).tape = (Access.prepare m.ip m.relativeBase).run m.tape := rfl
      rw [hprepare]
      rcases (Access.prepare m.ip m.relativeBase).run m.tape with ⟨fault | ⟨i, action⟩, tape⟩
      · rfl
      · exact perform_behind earlier { m with tape := tape } port i action s

/-- A run does the same whatever has been noted before it. -/
lemma runWith_behind (port : Port σ) (s : σ) :
    (m.behind earlier).runWith port s = (m.runWith port s).behind earlier := by
  fun_induction runWith port m s with
  | case1 m s fault m' s' h =>
    rw [runWith_eq, execute_behind, h]
    rfl
  | case2 m s m' s' h =>
    rw [runWith_eq, execute_behind, h]
    rfl
  | case3 m s m' s' h =>
    rw [runWith_eq, execute_behind, h]
    rfl
  | case4 m s m' s' h ih =>
    rw [runWith_eq, execute_behind, h]
    exact ih
  | case5 m s value m' s' h ih =>
    rw [runWith_eq, execute_behind, h]
    exact ih

lemma run_behind (inputs : List Word) :
    (m.behind earlier).run inputs = ((m.run inputs).1, (m.run inputs).2.behind earlier) := by
  have hturn := runWith_behind earlier { m with inputs := m.inputs ++ inputs } Port.buffered
    ⟨[], #[]⟩
  exact congrArg (fun turn => (turn.answer.map fun stop =>
    (⟨turn.port.outputs.toList, stop⟩ : Outcome), turn.machine)) hturn

lemma provideAll_behind (values : List Word) :
    (m.behind earlier).provideAll values = (m.provideAll values).map (behind earlier) := by
  unfold provideAll
  by_cases hempty : values.isEmpty
  · rw [if_pos hempty, if_pos hempty]
    rfl
  · rw [if_neg hempty, if_neg hempty]
    change (if m.status = .halted then _ else _) = _
    by_cases hhalted : m.status = .halted
    · rw [if_pos hhalted, if_pos hhalted]
      rfl
    · rw [if_neg hhalted, if_neg hhalted]
      rfl

lemma taking_behind (taken : Except Fault Machine) :
    Operation.taking (m.behind earlier) (taken.map (behind earlier)) =
      ((Operation.taking m taken).1, (Operation.taking m taken).2.behind earlier) := by
  cases taken <;> rfl

/-- An operation answers the same whatever has been noted before it, and what it notes comes behind
that, unless that is thrown away. -/
theorem Operation.perform_behind (op : Operation) :
    op.perform (m.behind earlier) =
      ((op.perform m).1, (op.perform m).2.behind (if op.clearsTrace then #[] else earlier)) := by
  cases op with
  | step =>
    have hturn := execute_behind earlier m Port.detached ()
    exact congrArg (fun turn => (turn.answer, turn.machine)) hturn
  | run inputs => exact run_behind earlier m inputs
  | runWith port s =>
    have hturn := runWith_behind earlier m port s
    exact congrArg (fun turn => ((turn.answer, turn.port), turn.machine)) hturn
  | provide value =>
    change taking (m.behind earlier) ((m.behind earlier).provideAll [value]) = _
    rw [provideAll_behind, taking_behind]
    rfl
  | provideAll values =>
    change taking (m.behind earlier) ((m.behind earlier).provideAll values) = _
    rw [provideAll_behind, taking_behind]
    rfl
  | reset => exact congrArg (fun machine => ((), machine)) (behind_empty m.reset).symm
  | peek address => rfl
  | poke address value => rfl
  | limitSteps limit => rfl
  | snapshot => rfl
  | restore s => rfl

/-- What an operation answers and what it leaves behind depends on the machine without its trace,
and what it notes comes behind the trace, unless that is thrown away. -/
lemma Operation.perform_eq (op : Operation) :
    op.perform m = ((op.perform m.untraced).1,
      (op.perform m.untraced).2.behind (if op.clearsTrace then #[] else m.trace)) := by
  have hbehind := Operation.perform_behind m.trace m.untraced op
  rwa [behind_untraced] at hbehind

end Machine

end Intcode
