import Intcode.Machine.Run

/-!
# Exploring continuations

An explorer keeps a machine at a request for input, its checkpoint, and tries out what happens on
different inputs. Each try runs a copy, a `Fork`, so tries do not disturb the checkpoint or each
other, and what led to the checkpoint is not executed again.

`Explorer.search` tries candidates in order until one is accepted. `Explorer.breadthFirst` tries all
sequences of moves, the shorter ones first and those of one length in lexicographic order. A visitor
decides at each fork whether to go on from there; the search ends when the visitor says so, when a
fork faults, or when no fork is left to go on from. Forks that have halted are not gone on from.
-/
namespace Intcode

/-- What became of a copy of a machine on some inputs. -/
structure Fork where
  /-- The values that were emitted on these inputs. -/
  outputs : List Word
  /-- How the run stopped. -/
  stop : Stop
  /-- The copy after the run. -/
  machine : Machine
  deriving DecidableEq

/-- Runs a copy of a machine on some inputs. -/
def Machine.fork (inputs : List Word) (m : Machine) : Except Fault Fork :=
  match m.run inputs with
  | (.ok outcome, machine) => .ok ⟨outcome.outputs, outcome.stop, machine⟩
  | (.error fault, _) => .error fault

/-- What a visitor decides about a fork. -/
inductive Visit where
  /-- Go on from this fork. -/
  | proceed
  /-- Do not go on from this fork. -/
  | prune
  /-- End the search here. -/
  | found
  deriving DecidableEq

/-- A fork with the indices of the moves that led to it. -/
structure Visited where
  /-- The indices of the moves. -/
  path : List Nat
  /-- The fork. -/
  fork : Fork
  deriving DecidableEq

/-- A machine at a request for input, or halted, from which continuations are tried. -/
structure Explorer where
  /-- The machine. -/
  checkpoint : Machine
  /-- What the machine emitted on its way to the checkpoint. -/
  outputs : List Word
  /-- How the machine stopped there. -/
  stop : Stop
  deriving DecidableEq

namespace Explorer

/-- Runs a machine up to its first request for input and explores from there. -/
def ofMachine (m : Machine) : Except Fault Explorer :=
  match m.run [] with
  | (.ok outcome, machine) => .ok ⟨machine, outcome.outputs, outcome.stop⟩
  | (.error fault, _) => .error fault

/-- Tries some inputs and leaves the checkpoint as it is. -/
def tryInputs (inputs : List Word) (e : Explorer) : Except Fault Fork := e.checkpoint.fork inputs

/-- Moves the checkpoint forward on some inputs. A run that faults leaves its traces on the machine
at the checkpoint. -/
def advance (inputs : List Word) (e : Explorer) : Except Fault (List Word) × Explorer :=
  if e.checkpoint.isHalted then (.error .halted, e)
  else
    match e.checkpoint.run inputs with
    | (.ok outcome, machine) => (.ok outcome.outputs, ⟨machine, outcome.outputs, outcome.stop⟩)
    | (.error fault, machine) => (.error fault, { e with checkpoint := machine })

/-- The first of some candidates whose fork is accepted, with the number of forks looked at. -/
def search (accept : Fork → Bool) (e : Explorer) :
    List (List Word) → Except Fault (Nat × Option (List Word × Fork))
  | [] => .ok (0, none)
  | candidate :: rest => do
    let fork ← e.tryInputs candidate
    if accept fork then return (1, some (candidate, fork))
    else
      let (tried, found) ← search accept e rest
      return (tried + 1, found)

/-! ### Breadth-first search -/

/-- A machine from which the search goes on, with the indices of the moves that led to it. -/
structure Branch where
  /-- The indices of the moves. -/
  path : List Nat
  /-- The machine. -/
  machine : Machine

/-- A search that is under way. Both lists are kept backwards. -/
structure Sweep where
  /-- The forks that have been visited. -/
  visited : List Visited
  /-- The branches of the next level. -/
  branches : List Branch

/-- A search that has ended. -/
structure Finding where
  /-- The forks that have been visited, in order. -/
  visited : List Visited
  /-- The fork that the search ended at, or the fault that it ended with. -/
  result : Except Fault (Option Visited)

/-- Visits the fork of a branch on one move. -/
def visitMove (visit : List Nat → Fork → Visit) (branch : Branch) (sweep : Sweep)
    (move : List Word × Nat) : Except Finding Sweep :=
  match branch.machine.fork move.1 with
  | .error fault => .error ⟨sweep.visited.reverse, .error fault⟩
  | .ok fork =>
    let here : Visited := ⟨branch.path ++ [move.2], fork⟩
    let visited := here :: sweep.visited
    match visit here.path fork with
    | .found => .error ⟨visited.reverse, .ok (some here)⟩
    | .prune => .ok { sweep with visited }
    | .proceed =>
      match fork.stop with
      | .halted => .ok { sweep with visited }
      | .awaitingInput => .ok ⟨visited, ⟨here.path, fork.machine⟩ :: sweep.branches⟩

/-- Visits the forks of a branch on all moves. -/
def visitBranch (visit : List Nat → Fork → Visit) (moves : List (List Word)) (sweep : Sweep)
    (branch : Branch) : Except Finding Sweep :=
  moves.zipIdx.foldlM (visitMove visit branch) sweep

/-- Searches a number of levels, from the branches of a sweep. -/
def levels (visit : List Nat → Fork → Visit) (moves : List (List Word)) : Nat → Sweep → Finding
  | 0, sweep => ⟨sweep.visited.reverse, .ok none⟩
  | depth + 1, sweep =>
    if sweep.branches.isEmpty then ⟨sweep.visited.reverse, .ok none⟩
    else
      match sweep.branches.reverse.foldlM (visitBranch visit moves) ⟨sweep.visited, []⟩ with
      | .error finding => finding
      | .ok sweep => levels visit moves depth sweep

/-- Searches sequences of moves up to a length. -/
def breadthFirst (moves : List (List Word)) (maxDepth : Nat) (visit : List Nat → Fork → Visit)
    (e : Explorer) : Finding :=
  if e.checkpoint.isHalted then ⟨[], .ok none⟩
  else levels visit moves maxDepth ⟨[], [⟨[], e.checkpoint⟩]⟩

end Explorer

end Intcode
