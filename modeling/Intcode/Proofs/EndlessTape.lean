import Intcode.Machine.Action
import Mathlib.Logic.Function.Basic

/-!
# Endless tapes

A `Tape` keeps a finite run of cells and grows when it is read or written.  An `EndlessTape` holds a
word at every place and never grows; `Tape.endless` forgets how many cells a tape keeps.

`Access.Yields x e r` says what the reading stage of an instruction comes to: on every tape that
looks like `e` the answer is `r`, and the tape is padded with zeros to the same number of cells.
The number depends on `e` alone, so an access that is made again on the padded tape gives the same
answer and pads nothing any more.
-/

namespace Intcode

/-! ## Padding -/

namespace Tape

/-- The tape with at least a given number of cells kept. -/
def pad (t : Tape) (n : Nat) : Tape :=
  { t with cells := t.cells ++ Array.replicate (n - t.cells.size) 0 }

/-- Padding to no more cells than are kept changes nothing. -/
lemma pad_eq_self (t : Tape) {n : Nat} (h : n ≤ t.size) : t.pad n = t := by
  have hzero : n - t.cells.size = 0 := Nat.sub_eq_zero_of_le h
  unfold pad
  rw [hzero, Array.replicate_zero, Array.append_empty]

/-- Growing a tape for one place is padding it. -/
lemma extend_eq_pad (t : Tape) (i : Nat) : t.extend i = t.pad (i + 1) := by
  unfold extend
  split
  · next h => exact (t.pad_eq_self h).symm
  · rfl

/-- Padding leaves the limit as it is. -/
@[simp] lemma limit_pad (t : Tape) (n : Nat) : (t.pad n).limit = t.limit := rfl

/-- Padding shows no other word anywhere. -/
@[simp] lemma cell_pad (t : Tape) (n j : Nat) : (t.pad n).cell j = t.cell j := by
  cases n with
  | zero => rw [t.pad_eq_self (Nat.zero_le _)]
  | succ i => rw [← extend_eq_pad, cell_extend]

/-- Padding twice is padding once, to the greater number of cells. -/
lemma pad_pad (t : Tape) (a b : Nat) : (t.pad a).pad b = t.pad (max a b) := by
  have hcount : (a - t.cells.size) + (b - (t.cells ++ Array.replicate (a - t.cells.size)
      (0 : Word)).size) = max a b - t.cells.size := by
    rw [Array.size_append, Array.size_replicate]
    omega
  unfold pad
  simp only [Array.append_assoc, Array.replicate_append_replicate, hcount]

end Tape

/-! ## Tapes without an end -/

/-- A tape that holds a word at every place. -/
structure EndlessTape where
  /-- The word at each place. -/
  cell : Nat → Word
  /-- The first address that is out of reach. -/
  limit : UInt64
  /-- The first place at which no word can be kept, if there is one. -/
  bound : Option Nat

namespace EndlessTape

/-- Why an address is refused, if it is. -/
def refusal? (e : EndlessTape) (address : Word) : Option Refusal :=
  if address.toInt < 0 then some (.negative address)
  else if e.limit.toNat ≤ address.toInt.toNat then some (.beyondLimit address e.limit)
  else if e.bound.any fun bound => bound ≤ address.toInt.toNat then
    some (.beyondCapacity address)
  else none

/-- The word at an address. -/
def read (e : EndlessTape) (address : Word) : Except Refusal Word :=
  match e.refusal? address with
  | some refusal => .error refusal
  | none => .ok (e.cell address.toInt.toNat)

/-- The number of cells that a growing tape keeps at least once an address has been read. -/
def needed (e : EndlessTape) (address : Word) : Nat :=
  match e.refusal? address with
  | some _ => 0
  | none => address.toInt.toNat + 1

/-- The tape with another word at an address. -/
def write (e : EndlessTape) (address value : Word) : Except Refusal EndlessTape :=
  match e.refusal? address with
  | some refusal => .error refusal
  | none => .ok { e with cell := Function.update e.cell address.toInt.toNat value }

/-- The tape without a bound on the places that can be kept. -/
def unbounded (e : EndlessTape) : EndlessTape := { e with bound := none }

end EndlessTape

namespace Tape

/-- What a tape shows: the kept cells and zeros behind them.  There is a place at which no word can
be kept only if the limit lets an address get there. -/
def endless (t : Tape) : EndlessTape where
  cell := t.cell
  limit := t.limit
  bound := if t.limit.toNat < capacity then none else some (capacity - 1)

/-- The places within the limit can all be kept if it is below the capacity. -/
lemma bound_endless {t : Tape} (h : t.limit.toNat < capacity) : t.endless.bound = none := if_pos h

/-- Padding a tape does not change what it shows. -/
@[simp] lemma endless_pad (t : Tape) (n : Nat) : (t.pad n).endless = t.endless := by
  unfold endless
  rw [limit_pad]
  congr 1
  funext j
  exact t.cell_pad n j

/-- A tape reaches the addresses that the endless tape does not refuse. -/
lemma reach_eq (t : Tape) (address : Word) :
    t.reach address =
      match t.endless.refusal? address with
      | some refusal => .error refusal
      | none => .ok address.toInt.toNat := by
  have hplace : capacity ≤ address.toInt.toNat + 1 ↔ capacity - 1 ≤ address.toInt.toNat := by
    unfold capacity
    omega
  have hlimit : t.endless.limit = t.limit := rfl
  unfold reach locate EndlessTape.refusal?
  rw [hlimit]
  by_cases hneg : address.toInt < 0
  · simp [hneg]
  · by_cases hbeyond : t.limit.toNat ≤ address.toInt.toNat
    · simp [hneg, hbeyond]
    · by_cases hsmall : t.limit.toNat < capacity
      · have hkept : ¬ capacity ≤ address.toInt.toNat + 1 := by omega
        simp [hneg, hbeyond, bound_endless hsmall, hkept]
      · have hbound : t.endless.bound = some (capacity - 1) := if_neg hsmall
        by_cases hcap : capacity - 1 ≤ address.toInt.toNat
        · simp [hneg, hbeyond, hbound, hplace, hcap]
        · simp [hneg, hbeyond, hbound, hplace, hcap]

/-- Reading a tape answers as the endless tape does, and pads the tape by an amount that depends on
the endless tape alone. -/
lemma read_eq (t : Tape) (address : Word) :
    t.read address = (t.endless.read address, t.pad (t.endless.needed address)) := by
  unfold read EndlessTape.read EndlessTape.needed
  rw [reach_eq]
  cases t.endless.refusal? address with
  | some refusal => rw [t.pad_eq_self (Nat.zero_le _)]
  | none =>
    have hcell := t.cell_extend address.toInt.toNat address.toInt.toNat
    simp only [extend_eq_pad] at hcell ⊢
    rw [hcell]
    rfl

/-- Writing to a tape answers as the endless tape does. -/
lemma write_eq (t : Tape) (address value : Word) :
    (t.write address value).1 = (t.endless.write address value).map (fun _ => ()) ∧
      (t.write address value).2.endless =
        match t.endless.write address value with
        | .ok e => e
        | .error _ => t.endless := by
  unfold write EndlessTape.write
  rw [reach_eq]
  cases t.endless.refusal? address with
  | some refusal => exact ⟨rfl, rfl⟩
  | none =>
    refine ⟨rfl, ?_⟩
    have hlt : address.toInt.toNat < (t.extend address.toInt.toNat).size := by
      rw [size_extend]
      omega
    unfold endless
    rw [limit_put, limit_extend]
    congr 1
    funext j
    rw [cell_put _ hlt, cell_extend]
    by_cases hj : j = address.toInt.toNat
    · rw [hj, if_pos rfl, Function.update_self]
    · rw [if_neg (Ne.symm hj), Function.update_of_ne hj]

end Tape

/-! ## Accesses -/

namespace Access

variable {α β : Type}

/-- On every tape that shows `e` the access answers `r` and pads the tape to the same number of
cells. -/
def Yields (x : Access α) (e : EndlessTape) (r : Except Fault α) : Prop :=
  ∃ n, ∀ t : Tape, t.endless = e → x.run t = (r, t.pad n)

/-- An access that reads nothing yields its value. -/
lemma yields_pure (e : EndlessTape) (a : α) : (pure a : Access α).Yields e (.ok a) := by
  refine ⟨0, fun t _ => ?_⟩
  rw [t.pad_eq_self (Nat.zero_le _)]
  rfl

/-- An access that only fails yields its fault. -/
lemma yields_throw (e : EndlessTape) (fault : Fault) :
    (throw fault : Access α).Yields e (.error fault) := by
  refine ⟨0, fun t _ => ?_⟩
  rw [t.pad_eq_self (Nat.zero_le _)]
  rfl

/-- Running one access after another, on the tape that the first one leaves. -/
lemma run_bind (x : Access α) (f : α → Access β) (t : Tape) :
    (x >>= f).run t =
      match x.run t with
      | (.ok a, t) => (f a).run t
      | (.error fault, t) => (.error fault, t) := by
  rw [ExceptT.run_bind]
  simp only [bind, StateT.bind]
  rcases x.run t with ⟨a | a, t'⟩
  · rfl
  · rfl

/-- A fault ends a sequence of accesses. -/
lemma Yields.bind_error {x : Access α} (f : α → Access β) {e : EndlessTape} {fault : Fault}
    (hx : x.Yields e (.error fault)) : (x >>= f).Yields e (.error fault) := by
  obtain ⟨n, hn⟩ := hx
  refine ⟨n, fun t ht => ?_⟩
  rw [run_bind, hn t ht]

/-- After an answer the next access meets the padded tape, which shows the same. -/
lemma Yields.bind_ok {x : Access α} {f : α → Access β} {e : EndlessTape} {a : α}
    {r : Except Fault β} (hx : x.Yields e (.ok a)) (hf : (f a).Yields e r) :
    (x >>= f).Yields e r := by
  obtain ⟨n, hn⟩ := hx
  obtain ⟨m, hm⟩ := hf
  refine ⟨max n m, fun t ht => ?_⟩
  have hshown : (t.pad n).endless = e := by rw [Tape.endless_pad, ht]
  rw [run_bind, hn t ht, ← Tape.pad_pad]
  exact hm (t.pad n) hshown

/-- One access after another yields what the answers yield one after another. -/
lemma Yields.bind {x : Access α} {f : α → Access β} {e : EndlessTape} {r : Except Fault α}
    {g : α → Except Fault β} (hx : x.Yields e r) (hf : ∀ a, (f a).Yields e (g a)) :
    (x >>= f).Yields e (r >>= g) := by
  cases r with
  | error fault => exact hx.bind_error f
  | ok a => exact hx.bind_ok (hf a)

/-- Reading a word yields the word that the endless tape holds, or its refusal. -/
lemma yields_read (ip : UInt64) (address : Word) (e : EndlessTape) :
    (read ip address).Yields e ((e.read address).mapError (Refusal.fault ip)) := by
  refine ⟨e.needed address, fun t ht => ?_⟩
  simp only [read, ExceptT.run, t.read_eq, ht]
  cases e.read address with
  | error refusal => rfl
  | ok value => rfl

/-- An arithmetic result is no access at all. -/
lemma yields_inRange (ip : UInt64) (result : Option Word) (e : EndlessTape) :
    (inRange ip result).Yields e (result.elim (.error (.overflow ip)) .ok) := by
  cases result with
  | none => exact yields_throw e _
  | some value => exact yields_pure e value

end Access

end Intcode
