import Intcode.Amplifier.Concurrent

/-!
# The best order of phases

`orderings` lists all rearrangements of a list by position, in lexicographic order of positions, so
that equal elements are told apart. `bestOrder` runs an amplifier with each ordering of its phases
and keeps the greatest signal, with the first ordering that gives it. An ordering that gives no
signal ends the search with its error.
-/
namespace Intcode

/-- Each element of a list with the elements around it. -/
def picks {α : Type} : List α → List (α × List α)
  | [] => []
  | x :: rest => (x, rest) :: (picks rest).map fun (y, others) => (y, x :: others)

/-- The rearrangements of a list that has a given length. -/
def arrangements {α : Type} : Nat → List α → List (List α)
  | 0, _ => [[]]
  | n + 1, xs => (picks xs).flatMap fun (x, others) => (arrangements n others).map (x :: ·)

/-- All rearrangements of a list by position, in lexicographic order. The empty list has none. -/
def orderings {α : Type} (xs : List α) : List (List α) :=
  if xs.isEmpty then [] else arrangements xs.length xs

namespace Amplifier

/-- A signal with the order of phases that gives it. -/
structure Best where
  /-- The signal. -/
  signal : Word
  /-- The phases in order. -/
  order : List Word
  deriving DecidableEq

/-- The better one of what is best so far and another signal; what came first wins a tie. -/
def better (best : Option Best) (signal : Word) (order : List Word) : Best :=
  match best with
  | some b => if b.signal.toInt < signal.toInt then ⟨signal, order⟩ else b
  | none => ⟨signal, order⟩

/-- The greatest signal that some orders of phases give, starting from the best one so far; none if
one of the orders never gives a signal. -/
def bestOf (program : Program) (settings : Settings) (best : Option Best) :
    List (List Word) → Option (Except Error Best)
  | [] =>
    match best with
    | some b => some (.ok b)
    | none => some (.error (.settings .nothingToOrder))
  | order :: rest =>
    match runConcurrent ⟨program, order, settings⟩ with
    | none => none
    | some (.error error) => some (.error error)
    | some (.ok signal) => bestOf program settings (some (better best signal order)) rest

/-- The greatest signal over all orders of an amplifier's phases; none if one of the orders never
gives a signal. -/
def bestOrder (a : Amplifier) : Option (Except Error Best) :=
  bestOf a.program a.settings none (orderings a.phases)

end Amplifier

end Intcode
