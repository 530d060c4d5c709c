import Intcode.Image
import Intcode.Machine.Basic

/-!
# Snapshots

A snapshot is everything that the further execution of a machine depends on, apart from its step
limit, its tracing and the trace so far. `Machine.snapshot` takes one, `Machine.restore` puts one
into a machine, and two functions build a machine from one.

Snapshots are saved as JSON texts that carry the version of their form. A text with a version above
`Snapshot.latestVersion` is refused, once it has been found to be a snapshot otherwise.
-/
namespace Intcode

/-- Everything that the further execution of a machine depends on. -/
structure Snapshot where
  /-- The version of the saved form. -/
  version : UInt32
  /-- The image that the memory started with. -/
  program : Program
  /-- The memory. -/
  tape : Tape
  /-- The address of the next instruction. -/
  ip : UInt64
  /-- The address that relative operands count from. -/
  relativeBase : Word
  /-- What the most recent instruction left behind. -/
  status : Status
  /-- The values that have been queued as input. -/
  inputs : List Word
  /-- The value that was emitted last. -/
  lastOutput : Option Word
  /-- The number of instructions executed so far. -/
  steps : UInt64
  deriving DecidableEq

namespace Machine

/-- The snapshot of a machine. -/
def snapshot (m : Machine) : Snapshot where
  version := 1
  program := m.program
  tape := m.tape
  ip := m.ip
  relativeBase := m.relativeBase
  status := m.status
  inputs := m.inputs
  lastOutput := m.lastOutput
  steps := m.steps

/-- Puts a snapshot into a machine, which keeps its step limit, its tracing and its trace. -/
def restore (s : Snapshot) (m : Machine) : Machine :=
  { m with
    program := s.program
    tape := s.tape
    ip := s.ip
    relativeBase := s.relativeBase
    status := s.status
    inputs := s.inputs
    lastOutput := s.lastOutput
    steps := s.steps }

/-- A machine in the state of a snapshot, with the usual step limit and no tracing. -/
def ofSnapshot (s : Snapshot) : Machine := (boot s.program {}).restore s

/-- A machine in the state of a snapshot, with all limits taken from the settings. -/
def ofSnapshotWith (s : Snapshot) (settings : Settings) : Machine :=
  let m := (boot s.program settings).restore s
  { m with tape := ⟨s.tape.cells, settings.memoryLimit⟩ }

end Machine

/-! ### The saved form -/

/-- A status as a JSON value. -/
def Status.toJson : Status → Json.Value
  | running => .text "Running"
  | needsInput => .text "NeedsInput"
  | hasOutput value => .record [("HasOutput", .word value)]
  | halted => .text "Halted"

/-- The status that is nothing but a name. -/
def Status.ofName? (name : String) : Option Status :=
  if name = "Running" then some running
  else if name = "NeedsInput" then some needsInput
  else if name = "Halted" then some halted
  else none

/-- The status that a JSON value stands for. A status without a value is written as its name, or
as the only key of an object with the value `null`. -/
def Status.ofJson? : Json.Value → Option Status
  | .scalar (.string name) => (Json.textOf? name).bind ofName?
  | .object [(key, value)] => do
    let name ← Json.textOf? key
    if name = "HasOutput" then return hasOutput (← value.toWord?)
    else
      match value with
      | .scalar .null => ofName? name
      | _ => none
  | _ => none

/-- A tape as a JSON value. -/
def Tape.toJson (t : Tape) : Json.Value :=
  .record [("cells", .words t.cells.toList), ("limit", .count t.limit)]

/-- The tape that a JSON value stands for. -/
def Tape.ofJson? (v : Json.Value) : Option Tape := do
  let record ← Json.Record.ofValue? ["cells", "limit"] v
  let cells ← record.required "cells" Json.Value.toWords?
  let limit ← record.optional "limit" 16777216 Json.Value.toCount?
  return ⟨cells.toArray, limit⟩

namespace Snapshot

/-- Why a text is no snapshot. -/
inductive LoadError where
  /-- The text is not JSON, or not the JSON form of a snapshot. -/
  | malformed
  /-- The snapshot has a form that is not known here. -/
  | unsupportedVersion (version : UInt32)
  deriving DecidableEq

/-- The latest version of the saved form. -/
def latestVersion : UInt32 := 1

/-- The report of a text that is no snapshot, as far as it does not depend on the text. -/
def LoadError.message : LoadError → String
  | malformed => "serialization error"
  | unsupportedVersion version =>
    "serialization error: unsupported snapshot version " ++ Decimal.text version.toNat ++
      ": max supported is " ++ Decimal.text latestVersion.toNat

/-- A snapshot as a JSON value. -/
def toJson (s : Snapshot) : Json.Value :=
  .record
    [("version", .int s.version.toNat),
      ("program", s.program.toJson),
      ("memory", s.tape.toJson),
      ("ip", .count s.ip),
      ("relative_base", .word s.relativeBase),
      ("status", s.status.toJson),
      ("pending_inputs", .words s.inputs),
      ("last_output", match s.lastOutput with
        | some value => .word value
        | none => .null),
      ("step_count", .count s.steps)]

/-- The names of a snapshot's fields, in order. -/
def fieldNames : List String :=
  ["version", "program", "memory", "ip", "relative_base", "status", "pending_inputs",
    "last_output", "step_count"]

/-- The snapshot that a JSON value stands for, of whatever version. -/
def ofJson? (v : Json.Value) : Option Snapshot := do
  let record ← Json.Record.ofValue? fieldNames v
  return {
    version := ← record.optional "version" latestVersion Json.Value.toSmallCount?
    program := ← record.required "program" Program.ofJson?
    tape := ← record.required "memory" Tape.ofJson?
    ip := ← record.required "ip" Json.Value.toCount?
    relativeBase := ← record.required "relative_base" Json.Value.toWord?
    status := ← record.required "status" Status.ofJson?
    inputs := ← record.optional "pending_inputs" [] Json.Value.toWords?
    lastOutput := ← record.optional "last_output" none Json.Value.toOptionalWord?
    steps := ← record.optional "step_count" 0 Json.Value.toCount? }

/-- The saved form of a snapshot. -/
def save (s : Snapshot) : String := s.toJson.pretty

/-- The snapshot with a saved form. -/
def load (text : String) : Except LoadError Snapshot :=
  match (Json.read? text).bind ofJson? with
  | none => .error .malformed
  | some s => if latestVersion < s.version then .error (.unsupportedVersion s.version) else .ok s

end Snapshot

end Intcode
