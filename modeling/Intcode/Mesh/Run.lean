import Intcode.Mesh.Basic

/-!
# Running a mesh

The parties of a mesh may move in any order. `Mesh.run` picks one: a node moves until it has to
wait, then the next node that is ready takes over, and the supervisor moves when no node is ready.

No order of moves goes on for ever. A node has a bounded number of steps, and it is parked at most
once between two of them; so there are boundedly many moves that are more than waking up in vain or
delivering the packet of the NAT. After each of these every party wakes up at most once and the NAT
delivers at most one packet before the next. `moveLimit` counts this.
-/
namespace Intcode.Mesh

/-- The first node that is ready, beginning with a given one and going round. -/
def nextReady? (m : Mesh) (k : Nat) : Option Nat :=
  ((List.range m.nodes.size).map fun d => (k + d) % m.nodes.size).find? fun j =>
    m.isReady (.node j)

/-- What a mesh comes to within a number of moves, beginning with a given node. -/
def runFrom : Nat → Nat → Mesh → Option (Except Error Outcome)
  | 0, _, _ => none
  | count + 1, k, m =>
    match m.supervisor.watch with
    | .ended result => some result
    | _ =>
      if m.isReady (.node k) then runFrom count k (m.move (.node k)).1
      else
        match m.nextReady? k with
        | some j => runFrom count j (m.move (.node j)).1
        | none =>
          if m.isReady .supervisor then runFrom count 0 (m.move .supervisor).1 else none

/-- A number of moves in which every mesh with these settings comes to its end. -/
def moveLimit (settings : Settings) : Nat :=
  let nodes := settings.nodes.toNat
  (nodes * (3 * settings.machine.stepLimit.toNat + 4) + 1) * (nodes + 4)

/-- What a mesh comes to. -/
def run (program : Program) (settings : Settings) : Option (Except Error Outcome) :=
  match settings.check with
  | .error cause => some (.error (.settings cause))
  | .ok () => (start program settings).runFrom (moveLimit settings) 0

end Intcode.Mesh
