import Intcode.Amplifier.Basic

/-!
# Taking turns

One way to run an amplifier: the stages take turns, first to last, in rounds. In its turn a stage
runs until it halts or has used up its input; then what it emitted is handed to the next stage,
unless that one has halted. The first fault ends everything.

A round in which no stage completes an instruction shows a deadlock. Every other round uses up steps
of the stages, so there are never more rounds than the stages have steps in all, and one.
-/
namespace Intcode.Amplifier

/-- A stage that waits for its turn. -/
structure Stage where
  /-- The machine. -/
  machine : Machine
  /-- The input that is waiting. -/
  inbox : List Word
  /-- Whether the machine has halted. -/
  halted : Bool
  deriving DecidableEq

namespace Scheduled

/-- Hands values to a stage, unless it has halted. -/
def deliver (values : List Word) (s : Stage) : Stage :=
  if s.halted then s else { s with inbox := s.inbox ++ values }

/-- The turn of one stage; the answer also tells whether an instruction has been completed in this
round so far. -/
def turn (feedback : Bool) (state : List Stage × Bool) (k : Nat) :
    Except Fault (List Stage × Bool) :=
  let (stages, progressed) := state
  match stages[k]? with
  | none => .ok state
  | some stage =>
    if stage.halted then .ok state
    else
      let run := stage.machine.runWith Port.buffered ⟨stage.inbox, #[]⟩
      match run.answer with
      | .error fault => .error fault
      | .ok stop =>
        let stages := stages.set k ⟨run.machine, run.port.inputs, stop = .halted⟩
        let progressed := progressed || run.machine.steps ≠ stage.machine.steps
        match receiver? feedback stages.length k with
        | none => .ok (stages, progressed)
        | some next => .ok (stages.modify next (deliver run.port.outputs.toList), progressed)

/-- One turn of each stage. -/
def round (feedback : Bool) (stages : List Stage) : Except Fault (List Stage × Bool) :=
  (List.range stages.length).foldlM (turn feedback) (stages, false)

/-- The signal of stages that have all halted. -/
def signal (stages : List Stage) : Except Error Word :=
  match stages.getLast?.bind fun stage => stage.machine.lastOutput with
  | some value => .ok value
  | none => .error .noOutput

/-- What becomes of stages within a number of rounds, if they come to an end. -/
def rounds (feedback : Bool) : Nat → List Stage → Option (Except Error Word)
  | 0, _ => none
  | count + 1, stages =>
    if stages.all Stage.halted then some (signal stages)
    else
      match round feedback stages with
      | .error fault => some (.error (.fault fault))
      | .ok (stages, true) => rounds feedback count stages
      | .ok (_, false) => some (.error .deadlock)

/-- The stages of an amplifier before the first round. -/
def stages (a : Amplifier) : List Stage :=
  a.firstInputs.map fun inbox => ⟨a.stageMachine, inbox, false⟩

/-- The greatest number of rounds that an amplifier can take. -/
def roundLimit (a : Amplifier) : Nat :=
  a.phases.length * a.settings.machine.stepLimit.toNat + 1

end Scheduled

/-- The signal of an amplifier whose stages take turns. -/
def runScheduled (a : Amplifier) : Except Error Word :=
  if a.phases.isEmpty then .error (.settings .noPhases)
  else
    (Scheduled.rounds a.settings.feedback (Scheduled.roundLimit a) (Scheduled.stages a)).getD
      (.error .deadlock)

end Intcode.Amplifier
