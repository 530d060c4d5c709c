import Intcode.Amplifier.Basic
import Intcode.Queue

/-!
# Stages that run concurrently

The other way to run an amplifier: every stage goes on by itself, and channels lead from each stage
to the next. A channel delivers what was sent in order. A stage that asks for input while its
channel is empty waits; once the stage at the other end has come to its end and the channel has been
emptied, it gets the fault `channelClosed` instead. What is sent to a stage that has come to its end
is lost.

This is a transition system. `canAdvance` tells which stages can go on in a state, and `advance`
lets one of them execute one instruction; a machine that waits is suspended at its input
instruction. `settle` lets stages go on, always the last one that can, until none can. It comes to
an end because `weight` falls with every step (`weight_advance_lt`).

With feedback it may be that no stage can go on although some have not come to their end: each one
waits for another. Such an amplifier never gives a signal.
-/
namespace Intcode.Amplifier

/-- A stage that runs by itself. -/
structure Worker where
  /-- The machine. -/
  machine : Machine
  /-- How the stage has come to its end, if it has: with its last output, or with a fault. -/
  result : Option (Except Fault (Option Word))

/-- A bound on what a stage can still do: it executes its remaining instructions, may be suspended
before each of them, and comes to its end. -/
def Worker.weight (w : Worker) : Nat :=
  match w.result with
  | some _ => 0
  | none => 2 * w.machine.remaining + (if w.machine.status = .needsInput then 0 else 1) + 1

/-- Stages and the channels that lead to them. -/
structure Line where
  /-- Whether a channel leads from the last stage to the first. -/
  feedback : Bool
  /-- The stages. -/
  workers : Array Worker
  /-- The values on their way to each stage. -/
  channels : Array (Queue Word)

namespace Line

/-- The values on their way to a stage. -/
def channel (l : Line) (k : Nat) : Queue Word := l.channels.getD k .empty

/-- Tells whether a stage has not come to its end. -/
def isAlive (l : Line) (k : Nat) : Bool :=
  match l.workers[k]? with
  | some worker => worker.result.isNone
  | none => false

/-- Tells whether something may still be sent to a stage. -/
def isFed (l : Line) (k : Nat) : Bool :=
  match sender? l.feedback l.workers.size k with
  | some sender => l.isAlive sender
  | none => false

/-- Tells whether a machine waits, at the end of a channel. -/
def isWaiting (m : Machine) (channel : Queue Word) (fed : Bool) : Bool :=
  m.status = .needsInput && channel.isEmpty && fed

/-- Tells whether a stage can go on. -/
def canAdvance (l : Line) (k : Nat) : Bool :=
  match l.workers[k]? with
  | some worker =>
    worker.result.isNone && !isWaiting worker.machine (l.channel k) (l.isFed k)
  | none => false

/-- The channels as a stage sees them: it receives from its own, which something may still be sent
to or not, and sends to another one, if there is one. -/
def port (own : Nat) (fed : Bool) (other : Option Nat) : Port (Array (Queue Word)) where
  receive channels :=
    match (channels.getD own .empty).pop? with
    | some (value, rest) => (.ok (some value), channels.setIfInBounds own rest)
    | none => (if fed then .ok none else .error .channelClosed, channels)
  send value channels :=
    match other with
    | some k => (.ok (), channels.modify k fun channel => channel.push value)
    | none => (.ok (), channels)

/-- Lets a stage execute one instruction. -/
def work (port : Port (Array (Queue Word))) (worker : Worker) :
    StateM (Array (Queue Word)) Worker :=
  fun channels =>
    match worker.machine.execute port channels with
    | ⟨.ok .halted, machine, channels⟩ => (⟨machine, some (.ok machine.lastOutput)⟩, channels)
    | ⟨.ok _, machine, channels⟩ => (⟨machine, none⟩, channels)
    | ⟨.error fault, machine, channels⟩ => (⟨machine, some (.error fault)⟩, channels)

/-- The stage that gets what a stage emits, if it has not come to its end. -/
def listener? (l : Line) (k : Nat) : Option Nat :=
  (receiver? l.feedback l.workers.size k).filter l.isAlive

/-- Lets one stage go on by one instruction. -/
def advance (l : Line) (k : Nat) : Line :=
  let port := port k (l.isFed k) (l.listener? k)
  let (workers, channels) := (l.workers.modifyM k (work port)).run l.channels
  { l with workers, channels }

/-- The last stage that can go on, among the first ones. -/
def lastReady? (l : Line) : Nat → Option Nat
  | 0 => none
  | k + 1 => if l.canAdvance k then some k else l.lastReady? k

/-! ### Every run comes to an end -/

/-- A bound on what all stages can still do. -/
def weight (l : Line) : Nat :=
  l.workers.toList.foldr (fun worker total => worker.weight + total) 0

theorem receive_port_eq_none {own : Nat} {fed : Bool} {other : Option Nat}
    {channels : Array (Queue Word)}
    (h : ((port own fed other).receive channels).1 = .ok none) :
    (channels.getD own .empty).isEmpty = true ∧ fed = true := by
  simp only [port] at h
  split at h
  · cases h
  · rename_i hempty
    refine ⟨Queue.pop?_eq_none_iff.1 hempty, ?_⟩
    cases fed
    · cases h
    · rfl

/-- An instruction brings a stage that does not wait nearer to its end. -/
theorem weight_work_lt {own : Nat} {fed : Bool} {other : Option Nat} {worker : Worker}
    {channels : Array (Queue Word)} (halive : worker.result = none)
    (hready : isWaiting worker.machine (channels.getD own .empty) fed = false) :
    ((work (port own fed other) worker).run channels).1.weight < worker.weight := by
  have hpos : 2 * worker.machine.remaining < worker.weight := by
    simp only [Worker.weight, halive]
    omega
  simp only [work, StateT.run]
  split
  · exact Nat.lt_of_le_of_lt (Nat.zero_le _) hpos
  · rename_i status machine channels' hhalted heq
    cases hstatus : status with
    | halted => exact absurd hstatus hhalted
    | needsInput =>
      subst hstatus
      have hneeds := Machine.execute_needsInput (congrArg Turn.answer heq)
      rw [heq] at hneeds
      obtain ⟨hsuspended, hremaining, hempty⟩ := hneeds
      obtain ⟨hchannel, hfed⟩ := receive_port_eq_none hempty
      have hstatus : worker.machine.status ≠ .needsInput := by
        intro hwaiting
        unfold isWaiting at hready
        rw [hwaiting, hchannel, hfed] at hready
        cases hready
      simp only at hsuspended hremaining
      simp [Worker.weight, halive, hsuspended, hremaining, hstatus]
    | running =>
      have hlt := Machine.remaining_lt_of_execute_eq heq (by simp [hstatus]) (by simp [hstatus])
      refine Nat.lt_of_le_of_lt ?_ hpos
      simp only [Worker.weight]
      split <;> omega
    | hasOutput value =>
      have hlt := Machine.remaining_lt_of_execute_eq heq (by simp [hstatus]) (by simp [hstatus])
      refine Nat.lt_of_le_of_lt ?_ hpos
      simp only [Worker.weight]
      split <;> omega
  · exact Nat.lt_of_le_of_lt (Nat.zero_le _) hpos

theorem total_set_lt {α : Type} (f : α → Nat) (xs : List α) (k : Nat) (h : k < xs.length) (a : α)
    (hlt : f a < f xs[k]) :
    (xs.set k a).foldr (fun x total => f x + total) 0 <
      xs.foldr (fun x total => f x + total) 0 := by
  induction xs generalizing k with
  | nil => exact absurd h (Nat.not_lt_zero k)
  | cons x xs ih =>
    cases k with
    | zero =>
      rw [List.getElem_cons_zero] at hlt
      rw [List.set_cons_zero, List.foldr_cons, List.foldr_cons]
      omega
    | succ k =>
      rw [List.getElem_cons_succ] at hlt
      have := ih k (Nat.lt_of_succ_lt_succ h) hlt
      rw [List.set_cons_succ, List.foldr_cons, List.foldr_cons]
      omega

/-- What a step changes of the stages: it replaces one of them. -/
theorem workers_advance (l : Line) {k : Nat} (h : k < l.workers.size) :
    (l.advance k).workers = l.workers.set k
      ((work (port k (l.isFed k) (l.listener? k)) l.workers[k]).run l.channels).1 h := by
  simp only [advance, Array.modifyM, h, dif_pos, StateT.run_bind, StateT.run_pure]
  rfl

/-- A step of a stage that can go on brings the whole nearer to its end. -/
theorem weight_advance_lt {l : Line} {k : Nat} (h : l.canAdvance k = true) :
    (l.advance k).weight < l.weight := by
  unfold canAdvance at h
  split at h
  · rename_i worker hworker
    obtain ⟨hk, hget⟩ := Array.getElem?_eq_some_iff.1 hworker
    simp only [Bool.and_eq_true, Option.isNone_iff_eq_none, Bool.not_eq_true'] at h
    unfold weight
    rw [workers_advance l hk, Array.toList_set]
    refine total_set_lt _ _ _ (by simpa using hk) _ ?_
    simp only [Array.getElem_toList, hget]
    exact weight_work_lt h.1 h.2
  · cases h

theorem canAdvance_of_lastReady? {l : Line} {n k : Nat} (h : l.lastReady? n = some k) :
    l.canAdvance k = true := by
  induction n with
  | zero => cases h
  | succ n ih =>
    unfold lastReady? at h
    split at h
    · cases h; assumption
    · exact ih h

/-- Lets stages go on until none can. -/
def settle (l : Line) : Line :=
  match _h : l.lastReady? l.workers.size with
  | some k => settle (l.advance k)
  | none => l
termination_by l.weight
decreasing_by exact weight_advance_lt (canAdvance_of_lastReady? (by assumption))

/-- The results of the stages, if all of them have come to their ends. -/
def results? (l : Line) : Option (List (Except Fault (Option Word))) :=
  l.workers.toList.mapM Worker.result

end Line

/-! ### The signal -/

/-- The first fault that did not come from another stage's end, with the stage it happened at. -/
def rootCause? (results : List (Except Fault (Option Word))) : Option (Nat × Fault) :=
  results.zipIdx.findSome? fun (result, stage) =>
    match result with
    | .error fault => if fault = .channelClosed then none else some (stage, fault)
    | .ok _ => none

/-- Tells whether a stage has ended because nothing could be sent to it any more. -/
def isStarved : Except Fault (Option Word) → Bool
  | .error .channelClosed => true
  | _ => false

/-- The signal that the results of all stages make up. A stage that faults closes its channels, so
that its neighbours may fault as well; the fault that this began with is preferred. -/
def collect (results : List (Except Fault (Option Word))) : Except Error Word :=
  match rootCause? results with
  | some (stage, .capacity) => .error (.stageLost stage)
  | some (_, fault) => .error (.fault fault)
  | none =>
    if results.any isStarved then .error (.fault .channelClosed)
    else
      match results.getLast? with
      | some (.ok (some value)) => .ok value
      | _ => .error .noOutput

/-- The stages of an amplifier before the first step. -/
def line (a : Amplifier) : Line where
  feedback := a.settings.feedback
  workers := (a.phases.map fun _ => ⟨a.stageMachine, none⟩).toArray
  channels := (a.firstInputs.map Queue.ofList).toArray

/-- The signal of an amplifier whose stages run concurrently; none if they wait for each other for
ever. -/
def runConcurrent (a : Amplifier) : Option (Except Error Word) :=
  if a.phases.isEmpty then some (.error (.settings .noPhases))
  else a.line.settle.results?.map collect

end Intcode.Amplifier
