import Intcode.CommandLine.Plan

/-!
# The command line program

Carries out the plan of a command on the disk.
-/
namespace Intcode.CommandLine

/-- The number and the description that the operating system gives for an error, if it does. -/
def systemReason? : IO.Error → Option (UInt32 × String)
  | .alreadyExists _ number description => some (number, description)
  | .otherError number description => some (number, description)
  | .resourceBusy number description => some (number, description)
  | .resourceVanished number description => some (number, description)
  | .unsupportedOperation number description => some (number, description)
  | .hardwareFault number description => some (number, description)
  | .unsatisfiedConstraints number description => some (number, description)
  | .illegalOperation number description => some (number, description)
  | .protocolError number description => some (number, description)
  | .timeExpired number description => some (number, description)
  | .interrupted _ number description => some (number, description)
  | .noFileOrDirectory _ number description => some (number, description)
  | .invalidArgument _ number description => some (number, description)
  | .permissionDenied _ number description => some (number, description)
  | .resourceExhausted _ number description => some (number, description)
  | .inappropriateType _ number description => some (number, description)
  | .noSuchThing _ number description => some (number, description)
  | .unexpectedEof => none
  | .userError _ => none

/-- Carries out a file operation. An error without a reason of the operating system comes from a
content that is not text. -/
def tryFile {α : Type} (operation : IO α) : IO (Except FileError α) := do
  try return .ok (← operation)
  catch error =>
    match systemReason? error with
    | some (number, description) => return .error (.refused description number.toNat)
    | none => return .error .notText

/-- Waits and never comes back. -/
partial def waitForever : IO UInt32 := do
  IO.sleep 1000
  waitForever

/-- Carries out a plan, and gives the number that tells the caller how it has ended. -/
def Plan.carryOut : Plan → IO UInt32
  | done => return 0
  | fail cause => do
    IO.eprintln ("error: " ++ cause.message)
    return 1
  | stall => waitForever
  | tell notice next => do
    IO.print notice.text
    next.carryOut
  | warn fault next => do
    IO.eprintln ("runtime error: " ++ fault.message)
    next.carryOut
  | read name next => do
    (next (← tryFile (IO.FS.withFile name .read fun file => file.readToEnd))).carryOut
  | write name content next => do
    (next (← tryFile (IO.FS.writeFile name content))).carryOut

end Intcode.CommandLine

open Intcode.CommandLine in
/-- Does what the arguments ask for. -/
def main (arguments : List String) : IO UInt32 := do
  match Command.ofArguments arguments with
  | .ok command => command.plan.carryOut
  | .error error =>
    IO.eprintln ("error: " ++ error.message)
    IO.eprintln "usage: intcode [-v] COMMAND [OPTIONS] FILE"
    return 2
