import Intcode.Machine.Run
import Intcode.Settings

/-!
# Amplifiers

An amplifier is a chain of machines that run the same program. Each stage first gets its phase as
input, and the first stage then gets the initial signal; after that, what a stage emits is input to
the next stage, and with feedback what the last stage emits is input to the first. The signal of the
amplifier is the last value that the last stage emitted, once every stage has halted.

There are two ways to run an amplifier: `Amplifier.Scheduled` takes turns, and
`Amplifier.Concurrent` lets every stage go on whenever it can. This module holds what they share.
-/
namespace Intcode

/-- A program, the phases of its stages, and how they are connected. -/
structure Amplifier where
  /-- The program of every stage. -/
  program : Program
  /-- The phase of each stage. -/
  phases : List Word
  /-- How the stages are connected and limited. -/
  settings : Amplifier.Settings
  deriving DecidableEq

namespace Amplifier

/-- Why an amplifier has no signal. -/
inductive Error where
  /-- The amplifier cannot be run. -/
  | settings (cause : SettingsError)
  /-- A stage faulted. -/
  | fault (cause : Fault)
  /-- A stage broke off without a fault of its own: its tape could not be kept. -/
  | stageLost (stage : Nat)
  /-- All stages halted, and the last one emitted nothing. -/
  | noOutput
  /-- Every stage that has not halted waits for input that cannot come. -/
  | deadlock
  deriving DecidableEq

/-- The report of an amplifier that has no signal. -/
def Error.message : Error → String
  | settings cause => cause.message
  | fault cause => cause.message
  | stageLost stage => "node " ++ Decimal.text stage ++ " failed: stage thread panicked"
  | noOutput => "pipeline produced no output"
  | deadlock => "deadlock: every instance is waiting for input that can never arrive"

/-- The input that is waiting for each stage at the beginning: its phase, and for the first stage
the initial signal behind it. -/
def firstInputs (a : Amplifier) : List (List Word) :=
  match a.phases with
  | [] => []
  | phase :: rest => [phase, a.settings.initialSignal] :: rest.map fun phase => [phase]

/-- A machine that is about to run the program of a stage. -/
def stageMachine (a : Amplifier) : Machine := Machine.boot a.program a.settings.machine

/-- The stage that gets what a stage emits, in a chain of `count` stages. -/
def receiver? (feedback : Bool) (count stage : Nat) : Option Nat :=
  if stage + 1 < count then some (stage + 1) else if feedback then some 0 else none

/-- The stage that emits what a stage gets, in a chain of `count` stages. -/
def sender? (feedback : Bool) (count stage : Nat) : Option Nat :=
  if 0 < stage then some (stage - 1) else if feedback then some (count - 1) else none

end Amplifier

end Intcode
