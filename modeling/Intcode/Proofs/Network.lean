import Intcode.Amplifier.Basic
import Mathlib.Logic.Relation

/-!
# Networks of processes

Processes in a row, or in a ring if there is feedback: each one asks for values that its predecessor
emits, and is told that its channel is closed once the predecessor has ended and the channel is
empty.  What a process does depends on its own state and on the values that it has got, never on
when it got them.

From this it follows that the order in which the processes go on does not matter.  Two steps of
different processes can be made in either order (`next?_comm`), so there is only one network without
a step to which a network leads (`isFinal_unique`).  In it, either all processes have ended, or
there is feedback and all of them wait (`IsFinal.ended_or_idle`).
-/

namespace Intcode

open Amplifier Relation

/-- What a process does next. -/
inductive Reaction (σ : Type) where
  /-- It ends, with its last output or with a fault. -/
  | stop (ending : Except Fault (Option Word))
  /-- It goes on by itself. -/
  | go (next : σ)
  /-- It emits a value and goes on. -/
  | emit (value : Word) (next : σ)
  /-- It asks for a value, and goes on with it or faults over it. -/
  | ask (resume : Word → Except Fault σ)

/-- Processes are told by what they do next. -/
class Process (σ : Type) where
  /-- What a process does next. -/
  react : σ → Reaction σ

/-- A process with the values that wait for it, or what has become of it. -/
inductive Node (σ : Type) where
  /-- The process has not ended. -/
  | live (process : σ) (waiting : List Word)
  /-- The process has ended. -/
  | ended (ending : Except Fault (Option Word))

variable {σ : Type}

/-! ## Nodes -/

namespace Node

/-- Tells whether the process has not ended. -/
def isLive : Node σ → Bool
  | live _ _ => true
  | ended _ => false

/-- The node with more values waiting; they are lost if the process has ended. -/
def deliver (values : List Word) : Node σ → Node σ
  | live process waiting => live process (waiting ++ values)
  | ended ending => ended ending

@[simp] lemma deliver_nil (n : Node σ) : n.deliver [] = n := by
  cases n with
  | live process waiting => exact congrArg (live process) (List.append_nil waiting)
  | ended ending => rfl

@[simp] lemma isLive_deliver (values : List Word) (n : Node σ) :
    (n.deliver values).isLive = n.isLive := by
  cases n with
  | live process waiting => rfl
  | ended ending => rfl

lemma deliver_deliver (values more : List Word) (n : Node σ) :
    (n.deliver values).deliver more = n.deliver (values ++ more) := by
  cases n with
  | live process waiting => exact congrArg (live process) (List.append_assoc waiting values more)
  | ended ending => rfl

/-- The node of a process that has got a value. -/
def resumed (next : Except Fault σ) (waiting : List Word) : Node σ :=
  match next with
  | .ok process => live process waiting
  | .error fault => ended (.error fault)

lemma deliver_resumed (values : List Word) (next : Except Fault σ) (waiting : List Word) :
    (resumed next waiting).deliver values = resumed next (waiting ++ values) := by
  cases next with
  | error fault => rfl
  | ok process => rfl

/-- What comes of a reaction while some values are waiting: the node afterwards and what is emitted,
unless the process waits for a value that may still come. -/
def react? (fed : Bool) (waiting : List Word) : Reaction σ → Option (Node σ × List Word)
  | .stop ending => some (ended ending, [])
  | .go next => some (live next waiting, [])
  | .emit value next => some (live next waiting, [value])
  | .ask resume =>
    match waiting with
    | value :: rest => some (resumed (resume value) rest, [])
    | [] => if fed then none else some (ended (.error .channelClosed), [])

/-- How the process has ended. -/
def ending : Node σ → Except Fault (Option Word)
  | live _ _ => .ok none
  | ended ending => ending

variable [Process σ]

/-- The node after the next step of its process and what the process emits, unless the process has
ended or waits for a value that may still come. -/
def move? (fed : Bool) : Node σ → Option (Node σ × List Word)
  | live process waiting => react? fed waiting (Process.react process)
  | ended _ => none

/-- The process asks for a value while none is waiting. -/
def IsIdle (n : Node σ) : Prop :=
  ∃ process resume, n = live process [] ∧ Process.react process = .ask resume

/-- The process has ended without a fault, or it waits for a value. -/
def IsDormant (n : Node σ) : Prop := n.IsIdle ∨ ∃ output, n = ended (.ok output)

variable {n n' : Node σ} {fed : Bool} {emitted : List Word}

/-- Only a process that has not ended can do something. -/
lemma isLive_of_move?_eq_some (h : n.move? fed = some (n', emitted)) : n.isLive = true := by
  cases n with
  | live process waiting => rfl
  | ended ending => cases h

/-- What a process does while values may still come, it does as well if more values are waiting and
if none can come any more. -/
lemma move?_deliver (values : List Word) (fed : Bool)
    (h : n.move? true = some (n', emitted)) :
    (n.deliver values).move? fed = some (n'.deliver values, emitted) := by
  cases n with
  | ended ending => cases h
  | live process waiting =>
    change react? fed (waiting ++ values) (Process.react process) = _
    change react? true waiting (Process.react process) = _ at h
    cases hreact : Process.react process with
    | stop ending =>
      rw [hreact] at h
      cases h
      rfl
    | go next =>
      rw [hreact] at h
      cases h
      rfl
    | emit value next =>
      rw [hreact] at h
      cases h
      rfl
    | ask resume =>
      rw [hreact] at h
      cases waiting with
      | nil => cases h
      | cons value rest =>
        cases h
        rw [deliver_resumed]
        rfl

/-- A process that has not ended and cannot do anything waits for a value. -/
lemma isIdle_of_move?_eq_none (hlive : n.isLive = true) (h : n.move? fed = none) :
    n.IsIdle ∧ fed = true := by
  cases n with
  | ended ending => cases hlive
  | live process waiting =>
    change react? fed waiting (Process.react process) = none at h
    cases hreact : Process.react process with
    | stop ending =>
      rw [hreact] at h
      cases h
    | go next =>
      rw [hreact] at h
      cases h
    | emit value next =>
      rw [hreact] at h
      cases h
    | ask resume =>
      rw [hreact] at h
      cases waiting with
      | cons value rest => cases h
      | nil =>
        refine ⟨⟨process, resume, rfl, hreact⟩, ?_⟩
        cases fed with
        | true => rfl
        | false => cases h

/-- A process that waits has not ended. -/
lemma IsIdle.isLive (h : n.IsIdle) : n.isLive = true := by
  obtain ⟨process, resume, rfl, _⟩ := h
  rfl

/-- A process that waits for a value can only be told that none comes. -/
lemma IsIdle.move?_eq_some (hidle : n.IsIdle) (h : n.move? fed = some (n', emitted)) :
    n' = ended (.error .channelClosed) ∧ emitted = [] := by
  obtain ⟨process, resume, rfl, hreact⟩ := hidle
  change react? fed [] (Process.react process) = _ at h
  rw [hreact] at h
  cases fed with
  | true => cases h
  | false =>
    cases h
    exact ⟨rfl, rfl⟩

end Node

/-! ## Who sends to whom -/

section Neighbours

variable {feedback : Bool} {count j k i : Nat}

lemma sender?_of_receiver? (hj : j < count) (h : receiver? feedback count j = some i) :
    sender? feedback count i = some j := by
  unfold receiver? at h
  unfold sender?
  by_cases hlast : j + 1 < count
  · rw [if_pos hlast] at h
    cases h
    rw [if_pos (Nat.succ_pos j)]
    rfl
  · rw [if_neg hlast] at h
    cases feedback with
    | false => cases h
    | true =>
      cases h
      have hj' : count - 1 = j := by omega
      rw [if_neg (Nat.lt_irrefl 0), if_pos rfl, hj']

lemma receiver?_of_sender? (hi : i < count) (h : sender? feedback count i = some j) :
    j < count ∧ receiver? feedback count j = some i := by
  unfold sender? at h
  unfold receiver?
  by_cases hfirst : 0 < i
  · rw [if_pos hfirst] at h
    cases h
    have hi' : i - 1 + 1 = i := by omega
    rw [hi', if_pos hi]
    exact ⟨by omega, rfl⟩
  · rw [if_neg hfirst] at h
    cases feedback with
    | false => cases h
    | true =>
      cases h
      have hi' : i = 0 := by omega
      have hlast : ¬ count - 1 + 1 < count := by omega
      rw [if_neg hlast, if_pos rfl, hi']
      exact ⟨by omega, rfl⟩

/-- Without feedback a process sends to a later one. -/
lemma lt_of_receiver? (h : receiver? false count j = some i) : j < i := by
  unfold receiver? at h
  split at h
  · cases h
    exact Nat.lt_succ_self j
  · cases h

/-- No process gets values from two others. -/
lemma eq_of_receiver?_eq (hj : j < count) (hk : k < count)
    (h : receiver? feedback count j = some i) (h' : receiver? feedback count k = some i) :
    j = k := by
  have hsender := sender?_of_receiver? hj h
  rw [sender?_of_receiver? hk h'] at hsender
  exact (Option.some.inj hsender).symm

end Neighbours

/-- Processes in a row or in a ring. -/
structure Network (σ : Type) where
  /-- Whether the last process feeds the first one. -/
  feedback : Bool
  /-- The number of processes. -/
  count : Nat
  /-- The processes with the values that wait for them. -/
  node : Nat → Node σ

namespace Network

/-! ## Steps -/

/-- Tells whether the process that sends to a process has not ended. -/
def fed (c : Network σ) (k : Nat) : Bool :=
  match sender? c.feedback c.count k with
  | some j => (c.node j).isLive
  | none => false

/-- How the processes have ended, in order. -/
def endings (c : Network σ) : List (Except Fault (Option Word)) :=
  (List.range c.count).map fun k => (c.node k).ending

/-- The part for process `i` of what process `k` emits. -/
def parcel (c : Network σ) (k i : Nat) (emitted : List Word) : List Word :=
  if receiver? c.feedback c.count k = some i then emitted else []

/-- The network after a process has done something: its node has changed, and what it has emitted
has been delivered. -/
def apply (c : Network σ) (k : Nat) (move : Node σ × List Word) : Network σ :=
  { c with
    node := fun i => (if i = k then move.1 else c.node i).deliver (c.parcel k i move.2) }

variable {c d a b : Network σ} {j k i : Nat} {emitted : List Word} {n : Node σ}

lemma getElem?_endings (h : k < c.count) : c.endings[k]? = some (c.node k).ending := by
  unfold endings
  rw [List.getElem?_map, List.getElem?_range h]
  rfl

lemma mem_endings {e : Except Fault (Option Word)} :
    e ∈ c.endings ↔ ∃ k < c.count, (c.node k).ending = e := by
  unfold endings
  rw [List.mem_map]
  simp only [List.mem_range]

/-- A step of one process changes another one by delivering to it. -/
lemma node_apply_of_ne (h : i ≠ k) :
    (c.apply k (n, emitted)).node i = (c.node i).deliver (c.parcel k i emitted) :=
  congrArg (Node.deliver _) (if_neg h)

lemma node_apply_self :
    (c.apply k (n, emitted)).node k = n.deliver (c.parcel k k emitted) :=
  congrArg (Node.deliver _) (if_pos rfl)

lemma parcel_of_not_receiver (h : receiver? c.feedback c.count k ≠ some i) :
    c.parcel k i emitted = [] := if_neg h

@[simp] lemma parcel_nil (c : Network σ) (k i : Nat) : c.parcel k i [] = [] := ite_self []

lemma parcel_append (c : Network σ) (k i : Nat) (emitted more : List Word) :
    c.parcel k i (emitted ++ more) = c.parcel k i emitted ++ c.parcel k i more := by
  unfold parcel
  split
  · rfl
  · rfl

/-- A process that stays as it is and emits nothing leaves the network as it is. -/
lemma apply_node (c : Network σ) (k : Nat) : c.apply k (c.node k, []) = c := by
  have hnode : (c.apply k (c.node k, [])).node = c.node := by
    funext i
    change (if i = k then c.node k else c.node i).deliver (c.parcel k i []) = c.node i
    rw [parcel_nil, Node.deliver_nil]
    split
    · next hik => rw [hik]
    · rfl
  exact congrArg (fun node => { c with node := node }) hnode

/-- Two processes do not deliver to the same one. -/
lemma parcel_eq_nil_or (hjk : j ≠ k) (hj : j < c.count) (hk : k < c.count) (i : Nat)
    (emitted more : List Word) : c.parcel j i emitted = [] ∨ c.parcel k i more = [] := by
  by_cases hreceiver : receiver? c.feedback c.count j = some i
  · right
    exact parcel_of_not_receiver fun h => hjk (eq_of_receiver?_eq hj hk hreceiver h)
  · left
    exact parcel_of_not_receiver hreceiver

/-- What two processes deliver may be delivered in either order. -/
lemma deliver_parcel_comm (hjk : j ≠ k) (hj : j < c.count) (hk : k < c.count) (i : Nat)
    (emitted more : List Word) (n : Node σ) :
    (n.deliver (c.parcel j i emitted)).deliver (c.parcel k i more) =
      (n.deliver (c.parcel k i more)).deliver (c.parcel j i emitted) := by
  rcases parcel_eq_nil_or hjk hj hk i emitted more with h | h
  · rw [h, Node.deliver_nil, Node.deliver_nil]
  · rw [h, Node.deliver_nil, Node.deliver_nil]

variable [Process σ]

/-- The network after the next step of a process, if it can make one. -/
def next? (c : Network σ) (k : Nat) : Option (Network σ) :=
  if k < c.count then ((c.node k).move? (c.fed k)).map (c.apply k) else none

/-- Some process goes on. -/
def Step (c d : Network σ) : Prop := ∃ k, c.next? k = some d

/-- One network leads to another. -/
def Reaches : Network σ → Network σ → Prop := ReflTransGen Step

/-- No process can go on. -/
def IsFinal (c : Network σ) : Prop := ∀ k, c.next? k = none

/-- What a step is made of. -/
lemma exists_move_of_next? (h : c.next? k = some d) :
    k < c.count ∧ ∃ n emitted, (c.node k).move? (c.fed k) = some (n, emitted) ∧
      d = c.apply k (n, emitted) := by
  unfold next? at h
  by_cases hk : k < c.count
  · rw [if_pos hk] at h
    obtain ⟨⟨n, emitted⟩, hmove, hd⟩ := Option.map_eq_some_iff.1 h
    exact ⟨hk, n, emitted, hmove, hd.symm⟩
  · rw [if_neg hk] at h
    cases h

lemma next?_of_move? (hk : k < c.count)
    (h : (c.node k).move? (c.fed k) = some (n, emitted)) :
    c.next? k = some (c.apply k (n, emitted)) := by
  unfold next?
  rw [if_pos hk, h]
  rfl

/-- What a process can do while values may still come, it can do as well after it has emitted some
values, even to itself. -/
lemma next?_apply_of_move? {m : Node σ} {more : List Word} (hk : k < c.count)
    (h : n.move? true = some (m, more)) :
    (c.apply k (n, emitted)).next? k = some (c.apply k (m, emitted ++ more)) := by
  have hmove : ((c.apply k (n, emitted)).node k).move? ((c.apply k (n, emitted)).fed k) =
      some (m.deliver (c.parcel k k emitted), more) := by
    rw [node_apply_self]
    exact Node.move?_deliver _ _ h
  rw [next?_of_move? (c := c.apply k (n, emitted)) hk hmove]
  congr 1
  unfold apply
  congr 1
  funext i
  change (if i = k then m.deliver (c.parcel k k emitted) else
      (if i = k then n else c.node i).deliver (c.parcel k i emitted)).deliver (c.parcel k i more) =
    (if i = k then m else c.node i).deliver (c.parcel k i (emitted ++ more))
  rw [parcel_append, ← Node.deliver_deliver]
  by_cases hik : i = k
  · rw [if_pos hik, if_pos hik, hik]
  · rw [if_neg hik, if_neg hik, if_neg hik]

/-- What a process can do, it can still do after a step of another one. -/
lemma move?_apply {m : Node σ} {more : List Word} (hjk : j ≠ k) (hj : j < c.count)
    (hk : k < c.count) (hmove : (c.node j).move? (c.fed j) = some (n, emitted))
    (h : (c.node k).move? (c.fed k) = some (m, more)) :
    ((c.apply j (n, emitted)).node k).move? ((c.apply j (n, emitted)).fed k) =
      some (m.deliver (c.parcel j k emitted), more) := by
  rw [node_apply_of_ne hjk.symm]
  by_cases hreceiver : receiver? c.feedback c.count j = some k
  · have hfed : c.fed k = true := by
      unfold fed
      rw [sender?_of_receiver? hj hreceiver]
      exact Node.isLive_of_move?_eq_some hmove
    rw [hfed] at h
    exact Node.move?_deliver _ _ h
  · have hfed : (c.apply j (n, emitted)).fed k = c.fed k := by
      unfold fed
      change (match sender? c.feedback c.count k with | some i => _ | none => _) = _
      cases hsender : sender? c.feedback c.count k with
      | none => rfl
      | some i =>
        have hij : i ≠ j := by
          rintro rfl
          exact hreceiver (receiver?_of_sender? hk hsender).2
        change ((c.apply j (n, emitted)).node i).isLive = (c.node i).isLive
        rw [node_apply_of_ne hij, Node.isLive_deliver]
    rw [hfed, parcel_of_not_receiver hreceiver, Node.deliver_nil, Node.deliver_nil]
    exact h

/-- Steps of two different processes can be made in either order. -/
theorem next?_comm (hjk : j ≠ k) (ha : c.next? j = some a) (hb : c.next? k = some b) :
    ∃ d, a.next? k = some d ∧ b.next? j = some d := by
  obtain ⟨hj, n, emitted, hn, rfl⟩ := exists_move_of_next? ha
  obtain ⟨hk, m, more, hm, rfl⟩ := exists_move_of_next? hb
  have hleft := next?_of_move? (c := c.apply j (n, emitted)) hk (move?_apply hjk hj hk hn hm)
  have hright := next?_of_move? (c := c.apply k (m, more)) hj (move?_apply hjk.symm hk hj hm hn)
  refine ⟨_, hleft, ?_⟩
  rw [hright]
  congr 1
  have hcomm := fun i n => deliver_parcel_comm hjk hj hk i emitted more n
  unfold apply
  congr 1
  funext i
  change (if i = j then n.deliver (c.parcel k j more) else
      (if i = k then m else c.node i).deliver (c.parcel k i more)).deliver (c.parcel j i emitted) =
    (if i = k then m.deliver (c.parcel j k emitted) else
      (if i = j then n else c.node i).deliver (c.parcel j i emitted)).deliver (c.parcel k i more)
  by_cases hij : i = j
  · rw [if_pos hij, if_neg (hij ▸ hjk), if_pos hij, hcomm, hij]
  · by_cases hik : i = k
    · rw [if_neg hij, if_pos hik, if_pos hik, ← hcomm, hik]
    · rw [if_neg hij, if_neg hik, if_neg hik, if_neg hij, hcomm]

/-- Steps from the same network lead to a common one again. -/
lemma diamond (ha : Step c a) (hb : Step c b) : a = b ∨ ∃ d, Step a d ∧ Step b d := by
  obtain ⟨j, ha⟩ := ha
  obtain ⟨k, hb⟩ := hb
  by_cases hjk : j = k
  · subst hjk
    rw [ha] at hb
    exact Or.inl (Option.some.inj hb)
  · obtain ⟨d, had, hbd⟩ := next?_comm hjk ha hb
    exact Or.inr ⟨d, ⟨k, had⟩, ⟨j, hbd⟩⟩

/-- From a network in which no process can go on there is no way on. -/
lemma IsFinal.eq_of_reaches (hc : c.IsFinal) (h : c.Reaches d) : d = c := by
  rcases ReflTransGen.cases_head h with heq | ⟨b, ⟨k, hstep⟩, _⟩
  · exact heq.symm
  · rw [hc k] at hstep
    cases hstep

/-- Networks that have been reached from the same one lead to a common one again. -/
lemma join_reaches (ha : c.Reaches a) (hb : c.Reaches b) : Join Reaches a b := by
  refine church_rosser (fun x y z hy hz => ?_) ha hb
  rcases diamond hy hz with heq | ⟨d, hyd, hzd⟩
  · subst heq
    exact ⟨y, ReflGen.refl, ReflTransGen.refl⟩
  · exact ⟨d, ReflGen.single hyd, ReflTransGen.single hzd⟩

/-- A network leads to one network at most in which no process can go on. -/
theorem isFinal_unique (ha : c.Reaches a) (hafinal : a.IsFinal) (hb : c.Reaches b)
    (hbfinal : b.IsFinal) : a = b := by
  obtain ⟨d, had, hbd⟩ := join_reaches ha hb
  rw [← hafinal.eq_of_reaches had, ← hbfinal.eq_of_reaches hbd]

/-- A network that has been reached leads to the network in which no process can go on. -/
lemma reaches_of_isFinal (hd : c.Reaches d) (ha : c.Reaches a) (hafinal : a.IsFinal) :
    d.Reaches a := by
  obtain ⟨b, hdb, hab⟩ := join_reaches hd ha
  rw [← hafinal.eq_of_reaches hab]
  exact hdb

/-! ## What never changes -/

lemma shape_of_reaches (h : c.Reaches d) : d.feedback = c.feedback ∧ d.count = c.count := by
  induction h with
  | refl => exact ⟨rfl, rfl⟩
  | tail _ hstep ih =>
    obtain ⟨k, hstep⟩ := hstep
    obtain ⟨_, n, emitted, _, rfl⟩ := exists_move_of_next? hstep
    exact ih

/-- A process that has ended stays as it is. -/
lemma ended_of_next? {ending : Except Fault (Option Word)} (h : c.next? k = some d)
    (hended : c.node i = .ended ending) : d.node i = .ended ending := by
  obtain ⟨_, n, emitted, hmove, rfl⟩ := exists_move_of_next? h
  have hne : i ≠ k := by
    rintro rfl
    rw [hended] at hmove
    cases hmove
  rw [node_apply_of_ne hne, hended]
  rfl

lemma ended_of_reaches {ending : Except Fault (Option Word)} (h : c.Reaches d)
    (hended : c.node i = .ended ending) : d.node i = .ended ending := by
  induction h with
  | refl => exact hended
  | tail _ hstep ih =>
    obtain ⟨k, hstep⟩ := hstep
    exact ended_of_next? hstep ih

/-! ## How a network ends -/

/-- A process that cannot go on although it has not ended waits for one that has not ended. -/
lemma IsFinal.isIdle (hc : c.IsFinal) (hk : k < c.count) (hlive : (c.node k).isLive = true) :
    (c.node k).IsIdle ∧ ∃ j, sender? c.feedback c.count k = some j ∧ (c.node j).isLive = true := by
  have hnone := hc k
  unfold next? at hnone
  rw [if_pos hk] at hnone
  obtain ⟨hidle, hfed⟩ := Node.isIdle_of_move?_eq_none hlive (Option.map_eq_none_iff.1 hnone)
  refine ⟨hidle, ?_⟩
  unfold fed at hfed
  cases hsender : sender? c.feedback c.count k with
  | none =>
    rw [hsender] at hfed
    cases hfed
  | some j =>
    rw [hsender] at hfed
    exact ⟨j, rfl, hfed⟩

/-- If a process cannot go on although it has not ended, none before it has ended. -/
lemma IsFinal.isLive_of_le (hc : c.IsFinal) (hk : k < c.count) (hlive : (c.node k).isLive = true)
    (hik : i ≤ k) : (c.node i).isLive = true := by
  induction k with
  | zero =>
    rw [Nat.le_zero.1 hik]
    exact hlive
  | succ k ih =>
    rcases Nat.lt_or_eq_of_le hik with hlt | rfl
    · obtain ⟨_, j, hsender, hj⟩ := hc.isIdle hk hlive
      have hjk : k = j := Option.some.inj ((if_pos (Nat.succ_pos k)).symm.trans hsender)
      exact ih (Nat.lt_of_succ_lt hk) (hjk ▸ hj) (Nat.le_of_lt_succ hlt)
    · exact hlive

/-- When no process can go on, all of them have ended, or there is feedback and each one waits for
another. -/
theorem IsFinal.ended_or_idle (hc : c.IsFinal) :
    (∀ k < c.count, ∃ ending, c.node k = .ended ending) ∨
      c.feedback = true ∧ ∀ k < c.count, (c.node k).IsIdle := by
  by_cases hlive : ∃ k < c.count, (c.node k).isLive = true
  · right
    obtain ⟨k, hk, hlive⟩ := hlive
    obtain ⟨_, j, hsender, hj⟩ := hc.isIdle (Nat.lt_of_le_of_lt (Nat.zero_le k) hk)
      (hc.isLive_of_le hk hlive (Nat.zero_le k))
    unfold sender? at hsender
    rw [if_neg (Nat.lt_irrefl 0)] at hsender
    cases hfeedback : c.feedback with
    | false =>
      rw [hfeedback] at hsender
      cases hsender
    | true =>
      rw [hfeedback] at hsender
      cases hsender
      have hlast : c.count - 1 < c.count := by omega
      refine ⟨rfl, fun i hi => ?_⟩
      have hi' : i ≤ c.count - 1 := by omega
      exact (hc.isIdle hi (hc.isLive_of_le hlast hj hi')).1
  · left
    intro k hk
    cases hnode : c.node k with
    | live process waiting => exact absurd ⟨k, hk, by rw [hnode]; rfl⟩ hlive
    | ended ending => exact ⟨ending, rfl⟩

/-- Processes to which nobody else sends, and each of which has ended or waits for a value, can only
be told that no value comes. -/
lemma idle_or_closed_of_reaches (S : Nat → Prop) (h : c.Reaches d)
    (hclosed : ∀ j < c.count, ∀ i, S i → receiver? c.feedback c.count j = some i → S j)
    (hidle : ∀ i, S i → (c.node i).isLive = true → (c.node i).IsIdle) :
    ∀ i, S i → d.node i = c.node i ∨
      (c.node i).isLive = true ∧ d.node i = .ended (.error .channelClosed) := by
  induction h with
  | refl => exact fun i _ => Or.inl rfl
  | @tail b d hreaches hstep ih =>
    obtain ⟨hfeedback, hcount⟩ := shape_of_reaches hreaches
    obtain ⟨k, hstep⟩ := hstep
    obtain ⟨hk, n, emitted, hmove, rfl⟩ := exists_move_of_next? hstep
    have hmoved : S k → (c.node k).isLive = true ∧ n = .ended (.error .channelClosed) ∧
        emitted = [] := by
      intro hS
      rcases ih k hS with hsame | ⟨_, hended⟩
      · rw [hsame] at hmove
        have hlive := Node.isLive_of_move?_eq_some hmove
        exact ⟨hlive, (hidle k hS hlive).move?_eq_some hmove⟩
      · rw [hended] at hmove
        cases hmove
    intro i hi
    by_cases hik : i = k
    · obtain ⟨hlive, rfl, rfl⟩ := hmoved (hik ▸ hi)
      right
      rw [hik, node_apply_self]
      exact ⟨hlive, rfl⟩
    · have hparcel : b.parcel k i emitted = [] := by
        unfold parcel
        rw [hfeedback, hcount]
        split
        · next hreceiver =>
          exact (hmoved (hclosed k (hcount ▸ hk) i hi hreceiver)).2.2
        · rfl
      rw [node_apply_of_ne hik, hparcel, Node.deliver_nil]
      exact ih i hi

/-- Processes to which nobody else sends, and each of which has ended without a fault or waits for a
value, have ended without a fault or over closed channels once all of them have ended. -/
lemma halted_or_closed_of_reaches (S : Nat → Prop) (h : c.Reaches d)
    (hclosed : ∀ j < c.count, ∀ i, S i → receiver? c.feedback c.count j = some i → S j)
    (hdormant : ∀ i, S i → (c.node i).IsDormant)
    (hended : ∀ i, S i → ∃ ending, d.node i = .ended ending) :
    ∀ i, S i → (∃ output, c.node i = .ended (.ok output)) ∨
      d.node i = .ended (.error .channelClosed) := by
  have hidle : ∀ i, S i → (c.node i).isLive = true → (c.node i).IsIdle := by
    intro i hi hlive
    rcases hdormant i hi with hidle | ⟨output, hhalted⟩
    · exact hidle
    · rw [hhalted] at hlive
      cases hlive
  intro i hi
  rcases idle_or_closed_of_reaches S h hclosed hidle i hi with hsame | ⟨_, hclosed⟩
  · left
    obtain ⟨ending, hended⟩ := hended i hi
    rcases hdormant i hi with hidle | hhalted
    · have hlive := hidle.isLive
      rw [← hsame, hended] at hlive
      cases hlive
    · exact hhalted
  · exact Or.inr hclosed

end Network

end Intcode
