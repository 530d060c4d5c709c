import Intcode.Mesh.Router

/-!
# Meshes of machines

A mesh is a number of machines, its nodes, that run the same program and exchange packets. Each node
gets its address as its first input. Three values that a node emits one after the other make up a
packet: an address and two values. Asking for input is a poll of the router, which gives the values
of received packets one by one, and minus one if there are none.

Packets to the NAT are kept, each replacing the one before. When the mesh is idle, the NAT puts its
packet into the mailbox of the first node. The run ends when it has done so with the same second
value twice in a row and that packet has been used up; or when the mesh is idle and the NAT has no
packet or the first node has halted; or when a node fails.

A mesh is a transition system in which the nodes and the supervisor, which acts for the NAT, move in
any order. A move of a running node executes one instruction, with at most one operation of the
router; a node that has halted or failed reports that in a further move. Who waits, a parked node or
the supervisor, is woken up by certain events, and may also wake up without any; a party that finds
nothing to do waits again.
-/
namespace Intcode

namespace Mesh

/-- What a mesh has come to. -/
structure Outcome where
  /-- The second value of the packet that was first sent to the NAT. -/
  firstNatY : Word
  /-- The second value that the NAT delivered twice in a row. -/
  repeatedY : Word
  /-- The number of packets that the NAT has delivered. -/
  injections : Nat
  /-- The number of packets that nodes have delivered to nodes. -/
  packetsRouted : Nat
  deriving DecidableEq

/-- Why a mesh has no outcome. -/
inductive Error where
  /-- The mesh cannot be run. -/
  | settings (cause : SettingsError)
  /-- A node failed. -/
  | nodeFailed (node : Nat) (cause : Fault)
  /-- Every node waits for input that cannot come. -/
  | deadlock
  deriving DecidableEq

/-- The report of a mesh that has no outcome. -/
def Error.message : Error → String
  | settings cause => cause.message
  | nodeFailed node cause => "node " ++ Decimal.text node ++ " failed: " ++ cause.message
  | deadlock => "deadlock: every instance is waiting for input that can never arrive"

/-- What a node is about to do. -/
inductive Phase where
  /-- Execute an instruction. -/
  | running
  /-- Wait inside the router; it may have been woken up. -/
  | waiting (woken : Bool)
  /-- Report that it has halted. -/
  | halting
  /-- Report that it has failed. -/
  | failing (cause : Fault)
  /-- Nothing any more. -/
  | gone
  deriving DecidableEq

/-- A node. -/
structure Node where
  /-- The machine. -/
  machine : Machine
  /-- The emitted values that do not make up a packet yet. -/
  pending : List Word
  /-- What the node is about to do. -/
  phase : Phase
  deriving DecidableEq

/-- What the supervisor is about to do. -/
inductive Watch where
  /-- Look whether the mesh is idle. -/
  | looking
  /-- Wait until something happens; it may have been woken up. -/
  | waiting (woken : Bool)
  /-- Nothing any more: the run has come to its end. -/
  | ended (result : Except Error Outcome)

/-- The supervisor of a mesh. -/
structure Supervisor where
  /-- What the supervisor is about to do. -/
  watch : Watch
  /-- The second value that the NAT delivered last. -/
  lastInjected : Option Word
  /-- The second value that the NAT has delivered twice in a row. -/
  repeated : Option Word
  /-- The number of packets that the NAT has delivered. -/
  injections : Nat

/-- Who moves. -/
inductive Mover where
  /-- A node. -/
  | node (k : Nat)
  /-- The supervisor. -/
  | supervisor
  deriving DecidableEq

end Mesh

open Mesh in
/-- The nodes, the router and the supervisor. -/
structure Mesh where
  /-- The address of the NAT. -/
  natAddress : Word
  /-- The number of empty polls in a row after which a node is parked. -/
  idlePolls : UInt32
  /-- The nodes in order of their addresses. -/
  nodes : Array Node
  /-- What the nodes share. -/
  router : Router
  /-- The supervisor. -/
  supervisor : Supervisor

namespace Mesh

/-- The node with a number before its first move, with its address as input. -/
def Node.start (program : Program) (settings : Machine.Settings) (k : Nat) : Node where
  machine :=
    let m := Machine.boot program settings
    { m with inputs := [Word.ofCount (UInt64.ofNat k)] }
  pending := []
  phase := .running

/-- A mesh before the first move. -/
def start (program : Program) (settings : Settings) : Mesh where
  natAddress := settings.natAddress
  idlePolls := settings.idlePolls
  nodes := (Array.range settings.nodes.toNat).map (Node.start program settings.machine)
  router := Router.start settings
  supervisor := ⟨.looking, none, none, 0⟩

/-! ### Moves of nodes -/

/-- What an instruction of a node sees of the mesh: the router, and what it does there. -/
structure Desk where
  /-- The router. -/
  router : Router
  /-- The emitted values that do not make up a packet yet. -/
  pending : List Word
  /-- What has happened, latest first. -/
  events : List Event

/-- Polls the router for a node. -/
def receive (idlePolls : UInt32) (k : Nat) (d : Desk) : Except Fault (Option Word) × Desk :=
  match d.router.poll idlePolls k with
  | (.value value, router) =>
    (.ok (some value), { d with router, events := .took k value :: d.events })
  | (.empty, router) =>
    (.ok (some Word.minusOne), { d with router, events := .foundEmpty k :: d.events })
  | (.park, router) => (.ok none, { d with router, events := .parked k :: d.events })
  | (.stay, router) => (.ok none, { d with router, events := .stayed k :: d.events })
  | (.closed, router) =>
    (.error .channelClosed, { d with router, events := .turnedAway k :: d.events })

/-- Takes a value that a node emits, and passes on the packet that it completes, if any. -/
def send (natAddress : Word) (k : Nat) (value : Word) (d : Desk) : Except Fault Unit × Desk :=
  let events := .emitted k value :: d.events
  match d.pending with
  | [destination, x] =>
    match d.router.route natAddress k ⟨destination, x, value⟩ with
    | (.turnedAway sender, router) =>
      (.error .channelClosed, ⟨router, [], .turnedAway sender :: events⟩)
    | (event, router) => (.ok (), ⟨router, [], event :: events⟩)
  | pending => (.ok (), { d with pending := pending ++ [value], events })

/-- The mesh as the machine of a node sees it. -/
def port (natAddress : Word) (idlePolls : UInt32) (k : Nat) : Port Desk where
  receive := receive idlePolls k
  send := send natAddress k

/-- What a node is about to do after an instruction. -/
def Phase.after : Except Fault Status → Phase
  | .ok .halted => .halting
  | .ok .needsInput => .waiting false
  | .ok _ => .running
  | .error .channelClosed => .gone
  | .error cause => .failing cause

/-- One move of a node. -/
def Node.move (port : Port Desk) (k : Nat) (n : Node) : StateM (Router × List Event) Node :=
  fun (router, events) =>
    match n.phase with
    | .gone => (n, router, events)
    | .halting =>
      let (event, router) := router.halt k
      ({ n with phase := .gone }, router, event :: events)
    | .failing cause =>
      let (event, router) := router.fail k cause
      ({ n with phase := .gone }, router, event :: events)
    | .running | .waiting _ =>
      let ⟨answer, machine, desk⟩ := n.machine.execute port ⟨router, n.pending, events⟩
      (⟨machine, desk.pending, .after answer⟩, desk.router, desk.events)

/-- Wakes up a node that waits. -/
def Node.wake (n : Node) : Node :=
  match n.phase with
  | .waiting _ => { n with phase := .waiting true }
  | _ => n

/-- Wakes up the supervisor if it waits. -/
def Supervisor.wake (s : Supervisor) : Supervisor :=
  match s.watch with
  | .waiting _ => { s with watch := .waiting true }
  | _ => s

/-- Wakes up all nodes that wait, except one. -/
def wakeOthers (k : Nat) (nodes : Array Node) : Array Node :=
  nodes.mapIdx fun i n => if i = k then n else n.wake

/-- One move of the node with a number, with what happens, latest first. -/
def moveNode (k : Nat) (m : Mesh) : Mesh × List Event :=
  let port := port m.natAddress m.idlePolls k
  let (nodes, router, events) := (m.nodes.modifyM k (Node.move port k)).run (m.router, [])
  if events.any Event.wakes then
    ({ m with nodes := wakeOthers k nodes, router, supervisor := m.supervisor.wake }, events)
  else ({ m with nodes, router }, events)

/-! ### Moves of the supervisor -/

/-- Ends the run. -/
def finish (result : Except Error Outcome) (m : Mesh) : Mesh × List Event :=
  ({ m with
      nodes := m.nodes.map Node.wake
      router := { m.router with shutdown := true }
      supervisor := { m.supervisor with watch := .ended result } },
    [.shutDown])

/-- Puts the packet of the NAT into the mailbox of the first node. -/
def inject (packet : Packet) (m : Mesh) : Mesh × List Event :=
  ({ m with
      nodes := m.nodes.map Node.wake
      router := m.router.deliver 0 packet
      supervisor := {
        watch := .waiting false
        lastInjected := some packet.y
        repeated :=
          if m.supervisor.lastInjected = some packet.y then some packet.y
          else m.supervisor.repeated
        injections := m.supervisor.injections + 1 } },
    [.injected packet])

/-- What the supervisor does when a node has failed or the mesh is idle. -/
def act (m : Mesh) : Mesh × List Event :=
  match m.router.failure with
  | some (node, cause) => m.finish (.error (.nodeFailed node cause))
  | none =>
    match m.supervisor.repeated with
    | some y =>
      m.finish (.ok {
        firstNatY := m.router.firstNatY.getD y
        repeatedY := y
        injections := m.supervisor.injections
        packetsRouted := m.router.routed })
    | none =>
      match m.router.nat with
      | none => m.finish (.error .deadlock)
      | some packet =>
        if (m.router.mailbox 0).halted then m.finish (.error .deadlock) else m.inject packet

/-- One move of the supervisor, with what happens. -/
def moveSupervisor (m : Mesh) : Mesh × List Event :=
  match m.supervisor.watch with
  | .ended _ => (m, [])
  | .looking | .waiting _ =>
    if m.router.failure.isNone && !m.router.isIdle then
      ({ m with supervisor := { m.supervisor with watch := .waiting false } }, [])
    else m.act

/-! ### Moves -/

/-- One move, with what happens, latest first. -/
def move (mover : Mover) (m : Mesh) : Mesh × List Event :=
  match mover with
  | .node k => m.moveNode k
  | .supervisor => m.moveSupervisor

/-- Tells whether a party can move at all. A party that waits can, since it may wake up without any
event. -/
def canMove (mover : Mover) (m : Mesh) : Bool :=
  match mover with
  | .node k =>
    match m.nodes[k]? with
    | some n => n.phase ≠ .gone
    | none => false
  | .supervisor =>
    match m.supervisor.watch with
    | .ended _ => false
    | _ => true

/-- Tells whether a party can move and, if it waits, has been woken up. -/
def isReady (mover : Mover) (m : Mesh) : Bool :=
  match mover with
  | .node k =>
    match m.nodes[k]? with
    | some n => n.phase ≠ .gone && n.phase ≠ .waiting false
    | none => false
  | .supervisor =>
    match m.supervisor.watch with
    | .looking => true
    | .waiting woken => woken
    | .ended _ => false

end Mesh

end Intcode
