import Intcode.Machine.Step

/-!
# Runs

A run executes instructions until the machine halts, is suspended for want of input, or faults.
Since every completed instruction uses up one of the machine's remaining steps, every run ends.

`Machine.run` is a run against a buffer: it first queues some inputs, and it answers with the
outputs. The inputs are queued even if the machine has halted, and the outputs are lost if the run
ends in a fault.
-/
namespace Intcode

/-- How a run stopped. -/
inductive Stop where
  /-- The machine has come to its end. -/
  | halted
  /-- The machine stands at an input instruction for which there is no value. -/
  | awaitingInput
  deriving DecidableEq

/-- The status with which a machine stops. -/
def Stop.status : Stop → Status
  | halted => .halted
  | awaitingInput => .needsInput

/-- What a run emitted and how it stopped. -/
structure Outcome where
  /-- The values that were emitted, in order. -/
  outputs : List Word
  /-- How the run stopped. -/
  stop : Stop
  deriving DecidableEq

namespace Machine

variable {σ : Type}

theorem remaining_lt_of_execute_eq {port : Port σ} {m m' : Machine} {s s' : σ} {status : Status}
    (h : m.execute port s = ⟨.ok status, m', s'⟩) (hhalted : status ≠ .halted)
    (hneeds : status ≠ .needsInput) : m'.remaining < m.remaining := by
  have hlt := remaining_execute_lt (congrArg Turn.answer h) hhalted hneeds
  rwa [congrArg Turn.machine h] at hlt

/-- Executes instructions until the machine stops or faults. -/
def runWith (port : Port σ) (m : Machine) (s : σ) : Turn Stop σ :=
  match _h : m.execute port s with
  | ⟨.error fault, m', s'⟩ => ⟨.error fault, m', s'⟩
  | ⟨.ok .halted, m', s'⟩ => ⟨.ok .halted, m', s'⟩
  | ⟨.ok .needsInput, m', s'⟩ => ⟨.ok .awaitingInput, m', s'⟩
  | ⟨.ok .running, m', s'⟩ => runWith port m' s'
  | ⟨.ok (.hasOutput _), m', s'⟩ => runWith port m' s'
termination_by m.remaining
decreasing_by
  all_goals exact remaining_lt_of_execute_eq _h (by simp) (by simp)

/-- A run goes on from what its first instruction comes to. -/
theorem runWith_eq (port : Port σ) (m : Machine) (s : σ) :
    m.runWith port s =
      match m.execute port s with
      | ⟨.error fault, m', s'⟩ => ⟨.error fault, m', s'⟩
      | ⟨.ok .halted, m', s'⟩ => ⟨.ok .halted, m', s'⟩
      | ⟨.ok .needsInput, m', s'⟩ => ⟨.ok .awaitingInput, m', s'⟩
      | ⟨.ok .running, m', s'⟩ => m'.runWith port s'
      | ⟨.ok (.hasOutput _), m', s'⟩ => m'.runWith port s' := by
  rw [runWith]
  split <;> rename_i h <;> rw [h]

section First

variable {port : Port σ} {m m' : Machine} {s s' : σ} {fault : Fault} {stop : Stop} {status : Status}

/-- A run faults if its first instruction does. -/
theorem runWith_of_fault (h : m.execute port s = ⟨.error fault, m', s'⟩) :
    m.runWith port s = ⟨.error fault, m', s'⟩ := by
  rw [runWith_eq, h]

/-- A run stops if its first instruction does. -/
theorem runWith_of_stop (h : m.execute port s = ⟨.ok stop.status, m', s'⟩) :
    m.runWith port s = ⟨.ok stop, m', s'⟩ := by
  rw [runWith_eq, h]
  cases stop <;> rfl

/-- A run goes on behind its first instruction unless that stops it. -/
theorem runWith_of_step (h : m.execute port s = ⟨.ok status, m', s'⟩) (hhalted : status ≠ .halted)
    (hneeds : status ≠ .needsInput) : m.runWith port s = m'.runWith port s' := by
  rw [runWith_eq, h]
  cases status with
  | halted => exact absurd rfl hhalted
  | needsInput => exact absurd rfl hneeds
  | running => rfl
  | hasOutput value => rfl

/-- Induction along a run: its first instruction faults, or stops the run, or leads to a machine
whose run is the rest of it. -/
theorem runWith_induction (port : Port σ) {motive : Machine → σ → Prop}
    (fault : ∀ (m : Machine) (s : σ) (fault : Fault) (m' : Machine) (s' : σ),
      m.execute port s = ⟨.error fault, m', s'⟩ →
        m.runWith port s = ⟨.error fault, m', s'⟩ → motive m s)
    (stop : ∀ (m : Machine) (s : σ) (stop : Stop) (m' : Machine) (s' : σ),
      m.execute port s = ⟨.ok stop.status, m', s'⟩ →
        m.runWith port s = ⟨.ok stop, m', s'⟩ → motive m s)
    (step : ∀ (m : Machine) (s : σ) (status : Status) (m' : Machine) (s' : σ),
      m.execute port s = ⟨.ok status, m', s'⟩ → status ≠ .halted → status ≠ .needsInput →
        m.runWith port s = m'.runWith port s' → motive m' s' → motive m s)
    (m : Machine) (s : σ) : motive m s := by
  fun_induction runWith port m s with
  | case1 m s cause m' s' h => exact fault m s cause m' s' h (runWith_of_fault h)
  | case2 m s m' s' h => exact stop m s .halted m' s' h (runWith_of_stop h)
  | case3 m s m' s' h => exact stop m s .awaitingInput m' s' h (runWith_of_stop h)
  | case4 m s m' s' h ih =>
    exact step m s .running m' s' h (by simp) (by simp) (runWith_of_step h (by simp) (by simp)) ih
  | case5 m s value m' s' h ih =>
    exact step m s (.hasOutput value) m' s' h (by simp) (by simp)
      (runWith_of_step h (by simp) (by simp)) ih

end First

theorem Spent.trans {a b c : Machine} (hab : b.remaining < a.remaining) (hbc : b.Spent c) :
    a.Spent c := by
  rcases hbc with ⟨_, hbc⟩ | hbc
  · exact Or.inr (hbc ▸ hab)
  · exact Or.inr (Nat.lt_trans hbc hab)

/-- A run counts nothing, or it uses up steps. -/
theorem spent_runWith (port : Port σ) (m : Machine) (s : σ) :
    m.Spent (m.runWith port s).machine := by
  fun_induction runWith port m s with
  | case1 m s fault m' s' h => exact congrArg Turn.machine h ▸ spent_execute port m s
  | case2 m s m' s' h => exact congrArg Turn.machine h ▸ spent_execute port m s
  | case3 m s m' s' h => exact congrArg Turn.machine h ▸ spent_execute port m s
  | case4 m s m' s' h ih =>
    exact Spent.trans (remaining_lt_of_execute_eq h (by simp) (by simp)) ih
  | case5 m s value m' s' h ih =>
    exact Spent.trans (remaining_lt_of_execute_eq h (by simp) (by simp)) ih

/-- What every instruction keeps is kept by a run. -/
theorem machine_runWith {port : Port σ} {P : Machine → Prop}
    (hexecute : ∀ (m : Machine) (s : σ), P m → P (m.execute port s).machine) {m : Machine}
    (h : P m) (s : σ) : P (m.runWith port s).machine := by
  fun_induction runWith port m s with
  | case1 m s fault m' s' hturn => exact congrArg Turn.machine hturn ▸ hexecute m s h
  | case2 m s m' s' hturn => exact congrArg Turn.machine hturn ▸ hexecute m s h
  | case3 m s m' s' hturn => exact congrArg Turn.machine hturn ▸ hexecute m s h
  | case4 m s m' s' hturn ih =>
    have hkept := hexecute m s h
    rw [hturn] at hkept
    exact ih hkept
  | case5 m s value m' s' hturn ih =>
    have hkept := hexecute m s h
    rw [hturn] at hkept
    exact ih hkept

/-- A run does not change the step limit. -/
theorem stepLimit_runWith (port : Port σ) (m : Machine) (s : σ) :
    (m.runWith port s).machine.stepLimit = m.stepLimit := by
  refine machine_runWith (P := fun m' => m'.stepLimit = m.stepLimit) ?_ rfl s
  intro m' s' h
  rw [stepLimit_execute, h]

/-- Queues inputs and runs until the machine stops or faults. -/
def run (inputs : List Word) (m : Machine) : Except Fault Outcome × Machine :=
  let turn := runWith Port.buffered { m with inputs := m.inputs ++ inputs } ⟨[], #[]⟩
  (turn.answer.map fun stop => ⟨turn.port.outputs.toList, stop⟩, turn.machine)

end Machine

end Intcode
