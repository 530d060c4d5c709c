/-!
# Queues

Values on their way from one party to another: what is put in last comes out last. A queue keeps all
that has ever been put into it, in order, and counts what has been taken out. So putting in and
taking out take the same time however much is waiting, and when both can be done, their order makes
no difference to the queue (`pop?_push_of_pop?_eq_some`).

The values that wait are those that have not been taken out (`toList`). A new value comes after all
of them (`toList_push`), and the first of them is taken out (`toList_of_pop?_eq_some`).
-/
namespace Intcode

/-- Values that are waiting in order, and those that have been waiting. -/
structure Queue (α : Type) where
  /-- All values that have ever been put in, in order. -/
  items : Array α
  /-- The number of values that have been taken out. -/
  taken : Nat
  /-- No more values have been taken out than have been put in. -/
  taken_le : taken ≤ items.size
  deriving DecidableEq

namespace Queue

variable {α : Type}

/-- A queue that nothing has been put into. -/
def empty : Queue α := ⟨#[], 0, Nat.zero_le _⟩

/-- A queue into which values have been put. -/
def ofList (values : List α) : Queue α := ⟨values.toArray, 0, Nat.zero_le _⟩

/-- The values that are waiting. -/
def toList (q : Queue α) : List α := q.items.toList.drop q.taken

/-- Tells whether nothing is waiting. -/
def isEmpty (q : Queue α) : Bool := q.items.size ≤ q.taken

/-- Puts a value in. -/
def push (q : Queue α) (value : α) : Queue α :=
  ⟨q.items.push value, q.taken, by
    rw [Array.size_push]
    exact Nat.le_succ_of_le q.taken_le⟩

/-- Takes out the first value that is waiting, if there is one. -/
def pop? (q : Queue α) : Option (α × Queue α) :=
  if h : q.taken < q.items.size then some (q.items[q.taken], ⟨q.items, q.taken + 1, h⟩) else none

/-- Takes out all that is waiting. -/
def clear (q : Queue α) : Queue α := ⟨q.items, q.items.size, Nat.le_refl _⟩

theorem toList_empty : (empty : Queue α).toList = [] := rfl

theorem toList_ofList (values : List α) : (ofList values).toList = values := rfl

theorem toList_clear (q : Queue α) : q.clear.toList = [] :=
  List.drop_eq_nil_of_le (Nat.le_of_eq Array.length_toList)

/-- Nothing can be taken out exactly if nothing is waiting. -/
theorem pop?_eq_none_iff {q : Queue α} : q.pop? = none ↔ q.isEmpty = true := by
  unfold pop? isEmpty
  rw [decide_eq_true_iff]
  split
  next h => exact iff_of_false (by simp) (Nat.not_le_of_lt h)
  next h => exact iff_of_true rfl (Nat.le_of_not_lt h)

/-- Something is waiting if something can be taken out. -/
theorem isEmpty_of_pop?_eq_some {q rest : Queue α} {value : α}
    (h : q.pop? = some (value, rest)) : q.isEmpty = false := by
  rw [← Bool.not_eq_true, ← pop?_eq_none_iff, h]
  exact Option.some_ne_none _

theorem isEmpty_iff {q : Queue α} : q.isEmpty = true ↔ q.toList = [] := by
  unfold isEmpty toList
  rw [decide_eq_true_iff, List.drop_eq_nil_iff, Array.length_toList]

/-- What is taken out is the first of the values that are waiting. -/
theorem toList_of_pop?_eq_some {q rest : Queue α} {value : α}
    (h : q.pop? = some (value, rest)) : q.toList = value :: rest.toList := by
  unfold pop? at h
  split at h
  next hlt =>
    cases h
    unfold toList
    rw [List.drop_eq_getElem_cons (by rwa [Array.length_toList]), Array.getElem_toList]
  next => cases h

/-- A value that is put in comes after all that are waiting. -/
theorem toList_push (q : Queue α) (value : α) : (q.push value).toList = q.toList ++ [value] := by
  unfold push toList
  rw [Array.toList_push,
    List.drop_append_of_le_length (by rw [Array.length_toList]; exact q.taken_le)]

/-- A value that is put in makes no difference to what is taken out before it. -/
theorem pop?_push_of_pop?_eq_some {q rest : Queue α} {value : α}
    (h : q.pop? = some (value, rest)) (other : α) :
    (q.push other).pop? = some (value, rest.push other) := by
  unfold pop? at h
  split at h
  next hlt =>
    cases h
    have hpush : q.taken < (q.push other).items.size := by
      show q.taken < (q.items.push other).size
      rw [Array.size_push]
      exact Nat.lt_succ_of_lt hlt
    unfold pop?
    rw [dif_pos (by exact hpush)]
    simp [push, Array.getElem_push_lt hlt]
  next => cases h

end Queue

end Intcode
