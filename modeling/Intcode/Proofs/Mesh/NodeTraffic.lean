import Intcode.Proofs.Mesh.Histories
import Intcode.Proofs.Traffic

/-!
# What goes through the ports of nodes

The events of a mesh tell what its machines have been handed and what they have offered (`Logs`).
An instruction calls its port once at most (`Machine.called_execute`), and the port of a node makes
an event of what goes through it (`logs_of_called`).  So a record that is kept at the port of a node
in the course of a schedule (`Mesh.traffic`) agrees with the events of that node (`logs_after`).
-/

namespace Intcode

/-! ## The calls of an instruction -/

section Called

variable {σ : Type} {port : Port σ} {s s' : σ} {answer : Except Fault Status}

/-- The value that has been offered, whether or not it has been sent. -/
def Port.Event.offered? : Port.Event → Option Word
  | .offered value _ => some value
  | .asked _ => none

/-- The calls that an instruction can make of its port, and the port afterwards. -/
inductive Port.Called (port : Port σ) (s : σ) : List Port.Event → σ → Prop
  | alone : Called port s [] s
  | asked : Called port s [.asked (port.receive s).1] (port.receive s).2
  | offered (value : Word) :
    Called port s [.offered value (port.send value s).1] (port.send value s).2

lemma Port.Asked.port_eq (h : port.Asked s answer s') : s' = (port.receive s).2 := by
  cases h with
  | received hreceive | suspended hreceive | refused hreceive => rw [hreceive]

/-- An instruction calls its port once at most. -/
lemma Machine.called_execute (port : Port σ) (m : Machine) (s : σ) :
    port.Called s (m.calls port s) (m.execute port s).port := by
  have hused := used_execute port.recorded m (s, [])
  rw [execute_recorded, List.nil_append] at hused
  change port.recorded.Used (s, []) (m.execute port s).answer
    ((m.execute port s).port, m.calls port s) at hused
  -- How the recording port was used tells what is in the record that it leaves behind.
  generalize (m.execute port s).answer = answer, (m.execute port s).port = s',
    m.calls port s = calls at hused ⊢
  cases hused with
  | alone => exact .alone
  | asked hasked =>
    obtain ⟨rfl, rfl⟩ := Prod.mk.inj hasked.port_eq
    exact .asked
  | @sent value _ hsend =>
    obtain ⟨rfl, rfl⟩ := Prod.mk.inj (Prod.mk.inj hsend).2
    exact .offered value
  | @unsent value _ _ hsend =>
    obtain ⟨rfl, rfl⟩ := Prod.mk.inj (Prod.mk.inj hsend).2
    exact .offered value

end Called

namespace Mesh

open Router

/-! ## The record of a node -/

/-- The calls that the machine of a node makes of its port when the node moves. -/
def Node.calls (port : Port Desk) (r : Router) (n : Node) : List Port.Event :=
  match n.phase with
  | .running | .waiting _ => n.machine.calls port ⟨r, n.pending, []⟩
  | .halting | .failing _ | .gone => []

/-- The calls that the machine of a node makes of its port when somebody moves. -/
def calls (k : Nat) (m : Mesh) (mover : Mover) : List Port.Event :=
  match m.nodes[k]? with
  | some n => if mover = .node k then n.calls (port m.natAddress m.idlePolls k) m.router else []
  | none => []

/-- The calls that the machine of a node has made of its port in the course of a schedule, in the
order of time. -/
def traffic (k : Nat) (m : Mesh) : List Mover → List Port.Event
  | [] => []
  | mover :: earlier => m.traffic k earlier ++ (m.after earlier).calls k mover

namespace Event

/-- The values that a node has been handed: those that it has taken out of its mailbox, and minus
one whenever it was told that nothing is waiting for it. -/
def handed (k : Nat) : Event → List Word
  | .took i value => if i = k then [value] else []
  | .foundEmpty i => if i = k then [Word.minusOne] else []
  | _ => []

variable {event : Event} {k : Nat}

lemma handed_of_actor? (h : event.actor? ≠ some k) : event.handed k = [] := by
  cases event with
  | took i value => exact if_neg fun heq => h (congrArg some heq)
  | foundEmpty i => exact if_neg fun heq => h (congrArg some heq)
  | _ => rfl

end Event

/-- The events of a mesh tell what has gone through the port of a node. -/
structure Logs (k : Nat) (record : List Port.Event) (events : List Event) : Prop where
  /-- The values that its machine has been handed. -/
  handed : record.filterMap Port.Event.received? = along (Event.handed k) events
  /-- The values that its machine has offered. -/
  emitted : record.filterMap Port.Event.offered? = along (Event.emissions k) events

section Logs

variable {natAddress : Word} {idlePolls : UInt32} {k : Nat} {n next : Node} {r r' : Router}
  {m : Mesh} {record later : List Port.Event} {events laterEvents : List Event}

lemma logs_nil (k : Nat) : Logs k [] [] := ⟨rfl, rfl⟩

lemma Logs.append (h : Logs k record events) (hlater : Logs k later laterEvents) :
    Logs k (record ++ later) (laterEvents ++ events) := by
  constructor
  · rw [List.filterMap_append, along_append, h.handed, hlater.handed]
  · rw [List.filterMap_append, along_append, h.emitted, hlater.emitted]

/-- Nothing goes through the port of a node while others act. -/
lemma logs_of_actor? (h : ∀ event ∈ events, event.actor? ≠ some k) : Logs k [] events := by
  constructor
  · exact (along_eq_nil _ fun event hmem => Event.handed_of_actor? (h event hmem)).symm
  · exact (along_eq_nil _ fun event hmem => Event.emissions_of_actor? (h event hmem)).symm

/-! ## The port makes the events -/

/-- What goes through the port of a node becomes an event of that node. -/
lemma logs_of_called {pending : List Word} {desk : Desk}
    (h : (port natAddress idlePolls k).Called ⟨r, pending, []⟩ record desk) :
    Logs k record desk.events := by
  have hemitted (value : Word) : (Event.emitted k value).emissions k = [value] := if_pos rfl
  cases h with
  | alone => exact logs_nil k
  | asked =>
    rcases hpoll : r.poll idlePolls k with ⟨reply, r'⟩
    have hreceive : (port natAddress idlePolls k).receive ⟨r, pending, []⟩ =
      (reply.answer, ⟨r', pending, [reply.event k]⟩) := receive_eq hpoll pending []
    rw [hreceive]
    cases reply with
    | value value => exact ⟨(if_pos rfl).symm, rfl⟩
    | empty => exact ⟨(if_pos rfl).symm, rfl⟩
    | park | stay | closed => exact ⟨rfl, rfl⟩
  | offered value =>
    rcases send_cases natAddress idlePolls k r pending value with
      ⟨_, hsend⟩ | ⟨_, _, _, ⟨_, hsend⟩ | ⟨event, r', hhands, _, hsend⟩⟩
    · rw [hsend]
      exact ⟨rfl, (hemitted value).symm⟩
    · rw [hsend]
      exact ⟨rfl, by simp only [along, hemitted]; rfl⟩
    · rw [hsend]
      -- What becomes of the packet is an event of its own.
      cases hhands <;> exact ⟨rfl, by simp only [along, hemitted]; rfl⟩

/-- The events of a move of a node tell what has gone through its port. -/
lemma Node.logs_move (h : n.move (port natAddress idlePolls k) k (r, []) = (next, r', events)) :
    Logs k (n.calls (port natAddress idlePolls k) r) events := by
  have hexecuted (hphase : n.phase = .running ∨ ∃ woken, n.phase = .waiting woken) :
      Logs k (n.machine.calls (port natAddress idlePolls k) ⟨r, n.pending, []⟩) events := by
    have hcalled := n.machine.called_execute (port natAddress idlePolls k) ⟨r, n.pending, []⟩
    rw [move_eq hphase rfl] at h
    cases h
    exact logs_of_called hcalled
  unfold Node.calls
  cases hphase : n.phase with
  | running => exact hexecuted (Or.inl hphase)
  | waiting woken => exact hexecuted (Or.inr ⟨woken, hphase⟩)
  | halting | failing | gone =>
    unfold Node.move at h
    rw [hphase] at h
    cases h
    exact ⟨rfl, rfl⟩

/-- The events of a move tell what has gone through the port of a node. -/
lemma Sound.logs_move (h : m.Sound) (k : Nat) (mover : Mover) :
    Logs k (m.calls k mover) (m.move mover).2 := by
  by_cases hmover : mover = .node k
  · subst hmover
    change Logs k _ (m.moveNode k).2
    unfold calls
    cases hn : m.nodes[k]? with
    | none =>
      rw [moveNode_of_getElem?_eq_none hn]
      exact logs_nil k
    | some n =>
      rcases hmove : n.move (port m.natAddress m.idlePolls k) k (m.router, []) with
        ⟨next, r, events⟩
      rw [moveNode_of_move hn hmove]
      simp only [if_true]
      exact Node.logs_move hmove
  · have hcalls : m.calls k mover = [] := by
      unfold calls
      split
      · exact if_neg hmover
      · rfl
    rw [hcalls]
    exact logs_of_actor? fun event hmem hactor => hmover (h.eq_of_actor? hmem hactor)

/-- After every schedule the events tell what has gone through the ports of all nodes. -/
theorem logs_after (program : Program) (settings : Settings) (schedule : List Mover) (k : Nat) :
    Logs k ((start program settings).traffic k schedule)
      ((start program settings).history schedule) := by
  induction schedule with
  | nil => exact logs_nil k
  | cons mover earlier ih =>
    exact ih.append ((sound_after program settings earlier).logs_move k mover)

end Logs

end Mesh

end Intcode
