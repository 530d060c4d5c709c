import Intcode.Json.Record
import Intcode.Machine.Basic

/-!
# Settings

The settings of amplifiers and of meshes, which contain those of their machines, and the reading of
all three from JSON. Every field of a settings record has a default value.

A mesh needs at least one node, a NAT address that is not the address of a node, and at least one
empty poll before a node counts as idle; `Mesh.Settings.check` tells whether this is so.
-/
namespace Intcode

/-- Why settings cannot be used. -/
inductive SettingsError where
  /-- An amplifier has no stages. -/
  | noPhases
  /-- There are no phases to be ordered. -/
  | nothingToOrder
  /-- A mesh has no nodes. -/
  | noNodes
  /-- The NAT of a mesh has the address of a node. -/
  | natCollision (nat : Word) (nodes : UInt64)
  /-- A node of a mesh would be idle without any poll. -/
  | noIdlePolls
  deriving DecidableEq

/-- The report of settings that cannot be used. -/
def SettingsError.message : SettingsError → String
  | noPhases => "invalid configuration: pipeline needs at least one phase setting"
  | nothingToOrder => "invalid configuration: no phase settings to permute"
  | noNodes => "invalid configuration: network needs at least one node"
  | natCollision nat nodes =>
    "invalid configuration: nat address " ++ nat.text ++ " collides with node range 0.." ++
      Decimal.text nodes.toNat
  | noIdlePolls => "invalid configuration: idle_polls must be at least 1"

/-- How the stages of an amplifier are connected and limited. -/
structure Amplifier.Settings where
  /-- Whether the last stage feeds the first one. -/
  feedback : Bool := false
  /-- The value that the first stage gets behind its phase. -/
  initialSignal : Word := 0
  /-- The limits of each stage. -/
  machine : Machine.Settings := {}
  deriving DecidableEq

/-- The size of a mesh and the limits of its nodes. -/
structure Mesh.Settings where
  /-- The number of nodes; their addresses count from zero. -/
  nodes : UInt64 := 50
  /-- The address of the NAT. -/
  natAddress : Word := Word.ofByte 255
  /-- The number of empty polls in a row after which a node is idle. -/
  idlePolls : UInt32 := 2
  /-- The limits of each node. -/
  machine : Machine.Settings := {}
  deriving DecidableEq

namespace Mesh.Settings

/-- Refuses settings with which no mesh can run. -/
def check (settings : Settings) : Except SettingsError Unit :=
  if settings.nodes = 0 then .error .noNodes
  else if 0 ≤ settings.natAddress.toInt ∧ settings.natAddress.toInt < settings.nodes.toNat then
    .error (.natCollision settings.natAddress settings.nodes)
  else if settings.idlePolls = 0 then .error .noIdlePolls
  else .ok ()

end Mesh.Settings

/-! ### Reading settings -/

/-- The settings of a machine that a JSON value stands for. -/
def Machine.Settings.ofJson? (v : Json.Value) : Option Machine.Settings := do
  let record ← Json.Record.ofValue? ["max_steps", "max_memory", "trace"] v
  let default : Machine.Settings := {}
  return {
    stepLimit := ← record.optional "max_steps" default.stepLimit Json.Value.toCount?
    memoryLimit := ← record.optional "max_memory" default.memoryLimit Json.Value.toCount?
    tracing := ← record.optional "trace" default.tracing Json.Value.toBool? }

/-- The settings of an amplifier that a JSON value stands for. -/
def Amplifier.Settings.ofJson? (v : Json.Value) : Option Amplifier.Settings := do
  let record ← Json.Record.ofValue? ["feedback", "initial_signal", "vm"] v
  let default : Amplifier.Settings := {}
  return {
    feedback := ← record.optional "feedback" default.feedback Json.Value.toBool?
    initialSignal := ← record.optional "initial_signal" default.initialSignal Json.Value.toWord?
    machine := ← record.optional "vm" default.machine Machine.Settings.ofJson? }

/-- The settings of a mesh that a JSON value stands for. -/
def Mesh.Settings.ofJson? (v : Json.Value) : Option Mesh.Settings := do
  let record ← Json.Record.ofValue? ["nodes", "nat_address", "idle_polls", "vm"] v
  let default : Mesh.Settings := {}
  return {
    nodes := ← record.optional "nodes" default.nodes Json.Value.toCount?
    natAddress := ← record.optional "nat_address" default.natAddress Json.Value.toWord?
    idlePolls := ← record.optional "idle_polls" default.idlePolls Json.Value.toSmallCount?
    machine := ← record.optional "vm" default.machine Machine.Settings.ofJson? }

namespace Mesh.Settings

/-- Why a text gives no settings for a mesh. -/
inductive LoadError where
  /-- The text is not JSON, or not the JSON form of settings. -/
  | malformed
  /-- No mesh can run with the settings. -/
  | unusable (error : SettingsError)
  deriving DecidableEq

/-- The report of a text that gives no settings, as far as it does not depend on the text. -/
def LoadError.message : LoadError → String
  | malformed => "serialization error"
  | unusable error => error.message

/-- The settings in a JSON text, if a mesh can run with them. -/
def load (text : String) : Except LoadError Settings :=
  match (Json.read? text).bind ofJson? with
  | none => .error .malformed
  | some settings =>
    match settings.check with
    | .ok () => .ok settings
    | .error error => .error (.unusable error)

end Mesh.Settings

end Intcode
