import Intcode.Amplifier.Search
import Intcode.CommandLine.Files
import Intcode.Json.Writer
import Intcode.Mesh.Basic
import Intcode.Session
import Intcode.Snapshot

/-!
# Notices and failures

What a command shows, piece by piece, and why it may fail. A `Notice` says what is shown, and
`Notice.text` how.
-/
namespace Intcode

/-- The outcome of a mesh as a JSON value. -/
def Mesh.Outcome.toJson (o : Mesh.Outcome) : Json.Value :=
  .record
    [("first_nat_y", .word o.firstNatY),
      ("repeated_y", .word o.repeatedY),
      ("injections", .int o.injections),
      ("packets_routed", .int o.packetsRouted)]

namespace CommandLine

/-- Something that a command shows. -/
inductive Notice where
  /-- The values that a program emitted, as a list. -/
  | outputs (values : List Word)
  /-- The values that a program emitted, as text. -/
  | transcript (values : List Word)
  /-- How a machine stopped, where it stands, and how many instructions it has executed. -/
  | stopped (stop : Stop) (ip steps : UInt64)
  /-- The instructions that a machine has executed, and their number. -/
  | trace (steps : UInt64) (lines : List String)
  /-- The listing of a program. -/
  | listing (lines : List String)
  /-- The signal of an amplifier. -/
  | signal (signal : Word)
  /-- The greatest signal of an amplifier. -/
  | best (best : Amplifier.Best)
  /-- What a mesh has come to, as lines of text. -/
  | outcome (outcome : Mesh.Outcome)
  /-- What a mesh has come to, as JSON. -/
  | record (outcome : Mesh.Outcome)
  /-- A machine that stands at an address has been saved in a file. -/
  | saved (name : String) (ip : UInt64)
  deriving DecidableEq

/-- Lines of text, each with its end. -/
def unlines (lines : List String) : String := String.join (lines.map (· ++ "\n"))

/-- Values between commas. -/
def commaList (values : List Word) : String :=
  String.ofList (List.intercalate [','] (values.map Word.chars))

/-- The text of a notice. There is none for a program that emitted nothing. -/
def Notice.text : Notice → String
  | outputs values => if values.isEmpty then "" else unlines ["output: " ++ commaList values]
  | transcript values =>
    let (chars, others) := Ascii.decode values
    String.ofList chars ++ unlines (others.map Word.text)
  | stopped .halted _ steps => unlines ["halted after " ++ Decimal.text steps.toNat ++ " steps"]
  | stopped .awaitingInput ip steps =>
    unlines ["awaiting input at ip " ++ Decimal.text ip.toNat ++ " after " ++
      Decimal.text steps.toNat ++ " steps"]
  | trace steps lines =>
    unlines ("" :: ("--- Trace (" ++ Decimal.text steps.toNat ++ " steps) ---") ::
      lines.map ("  " ++ ·))
  | listing lines => unlines lines
  | signal value => unlines ["signal: " ++ value.text]
  | best b => unlines ["max signal: " ++ b.signal.text, "phases: " ++ commaList b.order]
  | outcome o =>
    unlines ["first nat y: " ++ o.firstNatY.text, "repeated y: " ++ o.repeatedY.text,
      "injections: " ++ Decimal.text o.injections,
      "packets routed: " ++ Decimal.text o.packetsRouted]
  | record o => unlines [o.toJson.pretty]
  | saved name ip =>
    unlines ["snapshot written to " ++ name ++ " (ip " ++ Decimal.text ip.toNat ++ ")"]

/-- Why a command fails. -/
inductive Failure where
  /-- A file cannot be read or written. -/
  | file (cause : FileError)
  /-- A program text is no program. -/
  | program (cause : ParseError)
  /-- A program image is no program. -/
  | image
  /-- What has been saved is no machine. -/
  | snapshot (cause : Snapshot.LoadError)
  /-- The settings of a mesh cannot be used. -/
  | settings (cause : Mesh.Settings.LoadError)
  /-- A machine faulted. -/
  | fault (cause : Fault)
  /-- An amplifier has no signal. -/
  | amplifier (cause : Amplifier.Error)
  /-- A mesh has no outcome. -/
  | mesh (cause : Mesh.Error)
  deriving DecidableEq

/-- The report of a failure. -/
def Failure.message : Failure → String
  | file cause => cause.message
  | program cause => cause.message
  | image => "serialization error"
  | snapshot cause => cause.message
  | settings cause => cause.message
  | fault cause => cause.message
  | amplifier cause => cause.message
  | mesh cause => cause.message

end CommandLine

end Intcode
