import Intcode.Word

/-!
# Tapes

The memory of a machine. A tape is endless in the upward direction: every cell that was never
written holds zero. What is kept of it is a finite run of cells, which grows when a cell at or past
its end is read or written, and never shrinks.

An access is refused at a negative address, and at an address from the tape's limit on, even where
a cell is kept. No tape keeps `Tape.capacity` cells or more, so an access that would have to
is refused too. Looking at a cell with `Tape.peek?` does not grow the tape.

The view of a tape is `Tape.cell`: the word at an address, zero past the end. Growing does not
change it (`cell_extend`), and a write changes it at one address (`cell_put`).
-/
namespace Intcode

/-- A growing run of cells with a limit on addresses. -/
structure Tape where
  /-- The cells that are kept. -/
  cells : Array Word
  /-- The first address that is out of reach. -/
  limit : UInt64
  deriving DecidableEq

/-- Why an access to a tape is refused. -/
inductive Refusal where
  /-- The address is negative. -/
  | negative (address : Word)
  /-- The address is at or past the limit. -/
  | beyondLimit (address : Word) (limit : UInt64)
  /-- No tape is long enough to keep a cell at this address. -/
  | beyondCapacity (address : Word)
  deriving DecidableEq

namespace Tape

/-- A number of cells that no tape keeps: at eight bytes each they would take up 2^63 bytes. -/
def capacity : Nat := 1152921504606846976

/-- The number of cells that are kept. -/
def size (t : Tape) : Nat := t.cells.size

/-- The word at an address; past the end it is zero. -/
def cell (t : Tape) (i : Nat) : Word := t.cells.getD i 0

/-- The place of an address on the tape, if the limit allows it. -/
def locate (t : Tape) (address : Word) : Except Refusal Nat :=
  if address.toInt < 0 then .error (.negative address)
  else if t.limit.toNat ≤ address.toInt.toNat then .error (.beyondLimit address t.limit)
  else .ok address.toInt.toNat

/-- The place of an address at which a cell can be kept. -/
def reach (t : Tape) (address : Word) : Except Refusal Nat :=
  match t.locate address with
  | .error refusal => .error refusal
  | .ok i => if capacity ≤ i + 1 then .error (.beyondCapacity address) else .ok i

/-- The tape with cells kept up to a place at least. -/
def extend (t : Tape) (i : Nat) : Tape :=
  if i < t.cells.size then t
  else { t with cells := t.cells ++ Array.replicate (i + 1 - t.cells.size) 0 }

/-- The tape with another word at a place that is kept. -/
def put (t : Tape) (i : Nat) (value : Word) : Tape :=
  { t with cells := t.cells.setIfInBounds i value }

/-- Reads the word at an address; the tape is grown to keep that cell. -/
def read (t : Tape) (address : Word) : Except Refusal Word × Tape :=
  match t.reach address with
  | .error refusal => (.error refusal, t)
  | .ok i =>
    let t := t.extend i
    (.ok (t.cell i), t)

/-- Writes a word to an address; the tape is grown to keep that cell. -/
def write (t : Tape) (address value : Word) : Except Refusal Unit × Tape :=
  match t.reach address with
  | .error refusal => (.error refusal, t)
  | .ok i => (.ok (), (t.extend i).put i value)

/-- Looks at the word at an address and leaves the tape as it is. -/
def peek? (t : Tape) (address : Word) : Except Refusal Word :=
  (t.locate address).map t.cell

@[simp] theorem limit_extend (t : Tape) (i : Nat) : (t.extend i).limit = t.limit := by
  unfold extend; split <;> rfl

@[simp] theorem limit_put (t : Tape) (i : Nat) (value : Word) :
    (t.put i value).limit = t.limit := rfl

theorem size_extend (t : Tape) (i : Nat) : (t.extend i).size = max t.size (i + 1) := by
  unfold extend size
  split
  · omega
  · simp; omega

@[simp] theorem size_put (t : Tape) (i : Nat) (value : Word) : (t.put i value).size = t.size := by
  simp [put, size]

/-- Growing a tape shows no other word anywhere. -/
@[simp] theorem cell_extend (t : Tape) (i j : Nat) : (t.extend i).cell j = t.cell j := by
  unfold extend cell
  split
  · rfl
  · simp only [Array.getD_eq_getD_getElem?, Array.getElem?_append]
    split
    · rfl
    · rename_i h
      rw [Array.getElem?_eq_none (Nat.le_of_not_lt h), Array.getElem?_replicate]
      split <;> rfl

/-- Writing to a place that is kept changes the word there and no other. -/
theorem cell_put (t : Tape) {i : Nat} (h : i < t.size) (value : Word) (j : Nat) :
    (t.put i value).cell j = if i = j then value else t.cell j := by
  have h' : i < t.cells.size := h
  simp only [put, cell, Array.getD_eq_getD_getElem?, Array.getElem?_setIfInBounds, h', if_true]
  split <;> rfl

end Tape

end Intcode
