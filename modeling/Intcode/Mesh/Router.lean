import Intcode.Machine.Run
import Intcode.Queue
import Intcode.Settings

/-!
# The router of a mesh

The nodes of a mesh share a router. It keeps a mailbox for each node with the values that are
waiting for it, the packet that was last sent to the NAT, and what it takes to tell whether the mesh
is idle. Every operation here is done as a whole, with no other one in between.

A node that polls gets the first value of its queue. If the queue is empty it is told so, and when
that has happened often enough in a row without the node having sent a packet, it is parked: it
waits inside the router until there is a value for it or the router is shut down.

Operations that another party may be waiting for are reported as events that wake it up
(`Event.wakes`).
-/
namespace Intcode.Mesh

/-- Two values on their way to an address. -/
structure Packet where
  /-- The address. -/
  destination : Word
  /-- The first value. -/
  x : Word
  /-- The second value. -/
  y : Word
  deriving DecidableEq

/-- What the router keeps for a node. -/
structure Mailbox where
  /-- The values that are waiting, in order. -/
  queue : Queue Word
  /-- The number of empty polls since the node last got a value or sent a packet. -/
  emptyPolls : UInt32
  /-- Whether the node waits inside the router. -/
  parked : Bool
  /-- Whether the node has halted. -/
  halted : Bool
  deriving DecidableEq

/-- The state that all nodes share. -/
structure Router where
  /-- The mailboxes in order of addresses. -/
  mailboxes : Array Mailbox
  /-- The packet that was last sent to the NAT. -/
  nat : Option Packet
  /-- The second value of the packet that was first sent to the NAT. -/
  firstNatY : Option Word
  /-- The number of packets that were put into mailboxes of nodes by nodes. -/
  routed : Nat
  /-- The first failure of a node that was reported. -/
  failure : Option (Nat × Fault)
  /-- Whether the mesh is coming to its end. -/
  shutdown : Bool
  deriving DecidableEq

/-- What happens in a mesh, as far as anybody but the machine concerned can notice. -/
inductive Event where
  /-- A node got a value that was waiting for it. -/
  | took (node : Nat) (value : Word)
  /-- A node was told that nothing is waiting for it. -/
  | foundEmpty (node : Nat)
  /-- A node was parked. -/
  | parked (node : Nat)
  /-- A parked node woke up and went on waiting. -/
  | stayed (node : Nat)
  /-- A node emitted a value. -/
  | emitted (node : Nat) (value : Word)
  /-- A packet was put into the mailbox of a node. -/
  | routed (sender receiver : Nat) (packet : Packet)
  /-- A packet was sent to the NAT. -/
  | retained (sender : Nat) (packet : Packet)
  /-- A packet was lost, having no mailbox or one whose node has halted. -/
  | dropped (sender : Nat) (packet : Packet)
  /-- A node was turned away because the mesh is coming to its end. -/
  | turnedAway (node : Nat)
  /-- A node reported that it has halted; the values that were waiting for it were discarded. -/
  | halted (node : Nat) (discarded : List Word)
  /-- A node reported that it has failed. -/
  | failed (node : Nat) (cause : Fault)
  /-- The NAT put its packet into the mailbox of the first node. -/
  | injected (packet : Packet)
  /-- The mesh was told to come to its end. -/
  | shutDown
  deriving DecidableEq

/-- Tells whether everybody who waits is woken up when something happens. -/
def Event.wakes : Event → Bool
  | parked _ | routed .. | halted .. | failed .. | injected _ | shutDown => true
  | _ => false

namespace Router

/-- The router of a mesh before any node has started. -/
def start (settings : Settings) : Router where
  mailboxes := Array.replicate settings.nodes.toNat ⟨.empty, 0, false, false⟩
  nat := none
  firstNatY := none
  routed := 0
  failure := none
  shutdown := false

/-- The mailbox of a node. -/
def mailbox (r : Router) (k : Nat) : Mailbox := r.mailboxes.getD k ⟨.empty, 0, false, true⟩

/-- Changes the mailbox of a node. -/
def update (r : Router) (k : Nat) (f : Mailbox → Mailbox) : Router :=
  { r with mailboxes := r.mailboxes.modify k f }

/-- Tells whether nothing is waiting for any node, and every node is parked or has halted. -/
def isIdle (r : Router) : Bool :=
  r.mailboxes.all fun box => box.queue.isEmpty && (box.parked || box.halted)

/-- The answer to a poll. -/
inductive Reply where
  /-- A value that was waiting. -/
  | value (value : Word)
  /-- Nothing is waiting. -/
  | empty
  /-- The node has to wait from now on. -/
  | park
  /-- The node has to go on waiting. -/
  | stay
  /-- The mesh is coming to its end. -/
  | closed
  deriving DecidableEq

/-- Answers a poll of a node that is not parked. -/
def pollAwake (idlePolls : UInt32) (k : Nat) (r : Router) : Reply × Router :=
  if r.shutdown then (.closed, r)
  else
    match (r.mailbox k).queue.pop? with
    | some (value, rest) =>
      (.value value, r.update k fun box => { box with queue := rest, emptyPolls := 0 })
    | none =>
      let emptyPolls := (r.mailbox k).emptyPolls + 1
      if emptyPolls < idlePolls then (.empty, r.update k fun box => { box with emptyPolls })
      else (.park, r.update k fun box => { box with emptyPolls, parked := true })

/-- Answers a parked node that has woken up. -/
def pollParked (k : Nat) (r : Router) : Reply × Router :=
  match (r.mailbox k).queue.pop? with
  | some (value, rest) =>
    if r.shutdown then
      (.closed, r.update k fun box => { box with parked := false, emptyPolls := 0 })
    else
      (.value value,
        r.update k fun box => { box with queue := rest, parked := false, emptyPolls := 0 })
  | none =>
    if r.shutdown then
      (.closed, r.update k fun box => { box with parked := false, emptyPolls := 0 })
    else (.stay, r)

/-- Answers a poll. -/
def poll (idlePolls : UInt32) (k : Nat) (r : Router) : Reply × Router :=
  if (r.mailbox k).parked then r.pollParked k else r.pollAwake idlePolls k

/-- Puts the two values of a packet into a mailbox. -/
def deliver (k : Nat) (packet : Packet) (r : Router) : Router :=
  r.update k fun box => { box with queue := (box.queue.push packet.x).push packet.y }

/-- Counts a packet that was put into a mailbox. -/
def countRouted (r : Router) : Router := { r with routed := r.routed + 1 }

/-- The node with an address, if it has not halted. -/
def receiver? (r : Router) (address : Word) : Option Nat :=
  if 0 ≤ address.toInt ∧ address.toInt < r.mailboxes.size ∧
      !(r.mailbox address.toInt.toNat).halted then
    some address.toInt.toNat
  else none

/-- Passes on a packet that a node has sent. -/
def route (natAddress : Word) (sender : Nat) (packet : Packet) (r : Router) : Event × Router :=
  if r.shutdown then (.turnedAway sender, r)
  else
    let r := r.update sender fun box => { box with emptyPolls := 0 }
    if packet.destination = natAddress then
      (.retained sender packet,
        { r with nat := some packet, firstNatY := r.firstNatY.or (some packet.y) })
    else
      match r.receiver? packet.destination with
      | some k => (.routed sender k packet, (r.deliver k packet).countRouted)
      | none => (.dropped sender packet, r)

/-- Notes that a node has halted. -/
def halt (k : Nat) (r : Router) : Event × Router :=
  (.halted k (r.mailbox k).queue.toList,
    r.update k fun box => { box with halted := true, queue := box.queue.clear })

/-- Notes that a node has failed. -/
def fail (k : Nat) (cause : Fault) (r : Router) : Event × Router :=
  (.failed k cause, { r with failure := r.failure.or (some (k, cause)) })

end Router

end Intcode.Mesh
