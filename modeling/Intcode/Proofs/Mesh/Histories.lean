import Intcode.Proofs.Mesh.MeshMoves
import Mathlib.Data.List.Chain

/-!
# Histories of meshes

What can be read off from the events of a mesh, in the order of time: the values that a node has
taken and emitted, the packets that have been put into its mailbox and that it has sent, the packets
of the NAT.  `along` collects what a view picks out of the single events.  What the router and the
supervisor remember is a part of that (`Steps.nat`, `Steps.firstNatY`, `Steps.routed`,
`Steps.shutdown_iff`, `Steps.exists_halted`, `recalls_after`).
-/

namespace Intcode.Mesh

open Router

/-! ## Views -/

section Along

variable {α : Type} (view : Event → List α)

/-- What a view picks out of the events of a history, whose latest event comes first, in the order
of time. -/
def along : List Event → List α
  | [] => []
  | event :: earlier => along earlier ++ view event

lemma along_append (later earlier : List Event) :
    along view (later ++ earlier) = along view earlier ++ along view later := by
  induction later with
  | nil => exact (List.append_nil _).symm
  | cons event later ih =>
    change along view (later ++ earlier) ++ view event = _
    rw [ih, List.append_assoc]
    rfl

lemma along_eq_nil {events : List Event} (h : ∀ event ∈ events, view event = []) :
    along view events = [] := by
  induction events with
  | nil => rfl
  | cons event earlier ih =>
    change along view earlier ++ view event = []
    rw [h event List.mem_cons_self, ih fun other hmem => h other (List.mem_cons_of_mem _ hmem)]
    rfl

lemma mem_along {events : List Event} {event : Event} {a : α} (hmem : event ∈ events)
    (ha : a ∈ view event) : a ∈ along view events := by
  induction events with
  | nil => cases hmem
  | cons latest earlier ih =>
    rcases List.mem_cons.1 hmem with rfl | hmem
    · exact List.mem_append_right _ ha
    · exact List.mem_append_left _ (ih hmem)

lemma exists_of_mem_along {events : List Event} {a : α} (h : a ∈ along view events) :
    ∃ event ∈ events, a ∈ view event := by
  induction events with
  | nil => cases h
  | cons event earlier ih =>
    rcases List.mem_append.1 h with hearlier | hnow
    · obtain ⟨other, hmem, ha⟩ := ih hearlier
      exact ⟨other, List.mem_cons_of_mem _ hmem, ha⟩
    · exact ⟨event, List.mem_cons_self, hnow⟩

end Along

/-- The two values that a packet carries. -/
def Packet.values (p : Packet) : List Word := [p.x, p.y]

/-- The three values that make up a packet. -/
def Packet.words (p : Packet) : List Word := [p.destination, p.x, p.y]

namespace Event

/-- The values that a node has taken out of its mailbox. -/
def taken (k : Nat) : Event → List Word
  | .took i value => if i = k then [value] else []
  | _ => []

/-- The packets that were put into the mailbox of a node, each with its sender, unless it came from
the NAT. -/
def arrivals (k : Nat) : Event → List (Option Nat × Packet)
  | .routed sender i packet => if i = k then [(some sender, packet)] else []
  | .injected packet => if 0 = k then [(none, packet)] else []
  | _ => []

/-- The values that were discarded when a node halted. -/
def discarded (k : Nat) : Event → List Word
  | .halted i values => if i = k then values else []
  | _ => []

/-- The values that a node has emitted. -/
def emissions (k : Nat) : Event → List Word
  | .emitted i value => if i = k then [value] else []
  | _ => []

/-- The packets of a node that the router has dealt with. -/
def sent (k : Nat) : Event → List Packet
  | .routed i _ packet | .retained i packet | .dropped i packet => if i = k then [packet] else []
  | _ => []

/-- The packets that were put into mailboxes by nodes. -/
def routings : Event → List Packet
  | .routed _ _ packet => [packet]
  | _ => []

/-- The packets that were sent to the NAT. -/
def retentions : Event → List Packet
  | .retained _ packet => [packet]
  | _ => []

/-- The packets that the NAT has put into the mailbox of the first node. -/
def injections : Event → List Packet
  | .injected packet => [packet]
  | _ => []

variable {event : Event} {k : Nat}

lemma emissions_of_actor? (h : event.actor? ≠ some k) : event.emissions k = [] := by
  cases event with
  | emitted i value => exact if_neg fun heq => h (congrArg some heq)
  | _ => rfl

lemma sent_of_actor? (h : event.actor? ≠ some k) : event.sent k = [] := by
  cases event with
  | routed i _ packet => exact if_neg fun heq => h (congrArg some heq)
  | retained i packet => exact if_neg fun heq => h (congrArg some heq)
  | dropped i packet => exact if_neg fun heq => h (congrArg some heq)
  | _ => rfl

lemma injections_of_actor? (h : event.actor? = some k) : event.injections = [] := by
  cases event with
  | injected => cases h
  | _ => rfl

end Event

/-! ## What the router remembers -/

section Router

variable {natAddress : Word} {idlePolls : UInt32} {settings : Settings} {r r' : Router}
  {events : List Event}

/-- The router on the way to where events have led it. -/
lemma Router.Steps.exists_of_append {later earlier : List Event}
    (h : Steps natAddress idlePolls r (later ++ earlier) r') :
    ∃ r₁, Steps natAddress idlePolls r earlier r₁ ∧ Steps natAddress idlePolls r₁ later r' := by
  induction later generalizing r' with
  | nil => exact ⟨r', h, .nil⟩
  | cons event later ih =>
    cases h with
    | cons h hstep =>
      obtain ⟨r₁, hearlier, hlater⟩ := ih h
      exact ⟨r₁, hearlier, hlater.cons hstep⟩

/-- The router before and after an event. -/
lemma Router.Steps.exists_step {later earlier : List Event} {event : Event}
    (h : Steps natAddress idlePolls r (later ++ event :: earlier) r') :
    ∃ r₁ r₂, Steps natAddress idlePolls r earlier r₁ ∧ Step natAddress idlePolls r₁ event r₂ ∧
      Steps natAddress idlePolls r₂ later r' := by
  obtain ⟨r₂, hevent, hlater⟩ := h.exists_of_append
  cases hevent with
  | cons hearlier hstep => exact ⟨_, r₂, hearlier, hstep, hlater⟩

/-- The NAT keeps the packet that was sent to it last. -/
lemma Router.Steps.nat (h : Steps natAddress idlePolls (.start settings) events r) :
    r.nat = (along Event.retentions events).getLast? := by
  induction h with
  | nil => rfl
  | cons _ hstep ih =>
    cases hstep with
    | @retained _ packet =>
      change some packet = (_ ++ [packet]).getLast?
      rw [List.getLast?_concat]
    | _ => exact ih.trans (by simp only [along, Event.retentions, List.append_nil])

/-- The router remembers the packet that was sent to the NAT first. -/
lemma Router.Steps.firstNatY (h : Steps natAddress idlePolls (.start settings) events r) :
    r.firstNatY = (along Event.retentions events).head?.map Packet.y := by
  induction h with
  | nil => rfl
  | @cons events _ r _ _ hstep ih =>
    cases hstep with
    | @retained _ packet =>
      change r.firstNatY.or (some packet.y) = (along _ events ++ [packet]).head?.map Packet.y
      rw [ih, List.head?_append]
      cases (along Event.retentions events).head? <;> rfl
    | _ => exact ih.trans (by simp only [along, Event.retentions, List.append_nil])

/-- The router counts the packets that nodes have put into mailboxes. -/
lemma Router.Steps.routed (h : Steps natAddress idlePolls (.start settings) events r) :
    r.routed = (along Event.routings events).length := by
  induction h with
  | nil => rfl
  | @cons events _ r _ _ hstep ih =>
    cases hstep with
    | @routed _ _ packet =>
      change r.routed + 1 = (along _ events ++ [packet]).length
      rw [List.length_append, ih, List.length_singleton]
    | _ => exact ih.trans (by simp only [along, Event.routings, List.append_nil])

/-- The router has been shut down exactly if that has happened. -/
lemma Router.Steps.shutdown_iff (h : Steps natAddress idlePolls (.start settings) events r) :
    r.shutdown = true ↔ .shutDown ∈ events := by
  induction h with
  | nil => exact iff_of_false (by simp [Router.start]) (by simp)
  | @cons events event _ _ _ hstep ih =>
    by_cases hevent : event = .shutDown
    · subst hevent
      cases hstep
      exact iff_of_true rfl List.mem_cons_self
    · rw [hstep.shutdown hevent, ih, List.mem_cons, or_iff_right (Ne.symm hevent)]

/-- A node that counts as halted has reported so, or there is no such node. -/
lemma Router.Steps.exists_halted (h : Steps natAddress idlePolls (.start settings) events r)
    {k : Nat} (hk : k < settings.nodes.toNat) (hhalted : (r.mailbox k).halted = true) :
    ∃ values, .halted k values ∈ events := by
  induction h with
  | nil =>
    rw [mailbox_start hk] at hhalted
    cases hhalted
  | cons _ hstep ih =>
    rcases hstep.halted_cases k with hsame | ⟨values, rfl, _⟩
    · obtain ⟨values, hmem⟩ := ih (hsame ▸ hhalted)
      exact ⟨values, List.mem_cons_of_mem _ hmem⟩
    · exact ⟨values, List.mem_cons_self⟩

end Router

/-! ## What the supervisor remembers -/

/-- The last of some values is the same as the one before, and no other is. -/
def EndsInRepeat (ys : List Word) (y : Word) : Prop :=
  ∃ earlier, ys = earlier ++ [y, y] ∧ (earlier ++ [y]).IsChain (· ≠ ·)

/-- What the supervisor remembers of the second values that the NAT has delivered, in the order of
time. -/
structure Supervisor.Recalls (s : Supervisor) (ys : List Word) : Prop where
  injections : s.injections = ys.length
  lastInjected : s.lastInjected = ys.getLast?
  unrepeated : s.repeated = none → ys.IsChain (· ≠ ·)
  repeated : ∀ y, s.repeated = some y → EndsInRepeat ys y

variable {m : Mesh}

lemma Supervisor.Recalls.wake {s : Supervisor} {ys : List Word} (h : s.Recalls ys) :
    s.wake.Recalls ys := by
  unfold Supervisor.wake
  split
  · exact ⟨h.injections, h.lastInjected, h.unrepeated, h.repeated⟩
  · exact h

/-- The supervisor remembers the value that the NAT delivers. -/
lemma recalls_inject {ys : List Word} (h : m.supervisor.Recalls ys)
    (hrepeated : m.supervisor.repeated = none) (packet : Packet) :
    (m.inject packet).1.supervisor.Recalls (ys ++ [packet.y]) := by
  have hchain := h.unrepeated hrepeated
  have hlast := h.lastInjected
  -- Nothing has been repeated before, so that only the last two values can be the same.
  refine ⟨?_, List.getLast?_concat.symm, fun hnone => ?_, fun y hsome => ?_⟩
  · change m.supervisor.injections + 1 = _
    rw [h.injections, List.length_append, List.length_singleton]
  · change (if m.supervisor.lastInjected = some packet.y then some packet.y
      else m.supervisor.repeated) = none at hnone
    split at hnone
    · cases hnone
    · next hne =>
      refine hchain.append (.singleton _) fun z hz y hy heq => hne ?_
      exact hlast.trans (hz.trans (heq ▸ hy.symm))
  · change (if m.supervisor.lastInjected = some packet.y then some packet.y
      else m.supervisor.repeated) = some y at hsome
    split at hsome
    · next heq =>
      cases hsome
      obtain ⟨earlier, rfl⟩ := List.getLast?_eq_some_iff.1 (hlast.symm.trans heq)
      exact ⟨earlier, by rw [List.append_assoc, List.singleton_append], hchain⟩
    · cases hrepeated.symm.trans hsome

/-- A node that moves wakes up the supervisor at most. -/
lemma recalls_moveNode {ys : List Word} (h : m.supervisor.Recalls ys) (k : Nat) :
    (m.moveNode k).1.supervisor.Recalls ys := by
  cases hn : m.nodes[k]? with
  | none =>
    rw [moveNode_of_getElem?_eq_none hn]
    exact h
  | some n =>
    rcases hmove : n.move (port m.natAddress m.idlePolls k) k (m.router, []) with
      ⟨next, r, events⟩
    rw [moveNode_of_move hn hmove, supervisor_withNode]
    cases events.any Event.wakes with
    | true => exact h.wake
    | false => exact h

/-- The NAT delivers nothing while a node moves. -/
lemma Sound.along_injections_moveNode (h : m.Sound) (k : Nat) :
    along Event.injections (m.moveNode k).2 = [] :=
  along_eq_nil _ fun _ hmem => Event.injections_of_actor? (h.actor?_moveNode hmem)

/-- The supervisor of a sound mesh remembers what happens in every move. -/
lemma Sound.recalls_move {ys : List Word} (h : m.Sound) (hrecalls : m.supervisor.Recalls ys)
    (mover : Mover) : (m.move mover).1.supervisor.Recalls
      (ys ++ (along Event.injections (m.move mover).2).map Packet.y) := by
  cases mover with
  | node k =>
    change (m.moveNode k).1.supervisor.Recalls (ys ++ (along _ (m.moveNode k).2).map _)
    rw [h.along_injections_moveNode, List.map_nil, List.append_nil]
    exact recalls_moveNode hrecalls k
  | supervisor =>
    change m.moveSupervisor.1.supervisor.Recalls (ys ++ (along _ m.moveSupervisor.2).map _)
    have hmoves := supervisorMoves_moveSupervisor m
    have hsame (s : Supervisor) (hs : s.Recalls ys) : s.Recalls (ys ++ []) := by
      rwa [List.append_nil]
    generalize m.moveSupervisor = result at hmoves
    cases hmoves with
    | ended => exact hsame _ hrecalls
    | waited =>
      refine hsame _ ⟨hrecalls.injections, hrecalls.lastInjected, hrecalls.unrepeated, ?_⟩
      exact hrecalls.repeated
    | finished =>
      refine hsame _ ⟨hrecalls.injections, hrecalls.lastInjected, hrecalls.unrepeated, ?_⟩
      exact hrecalls.repeated
    | @injected packet _ _ _ hrepeated => exact recalls_inject hrecalls hrepeated packet

/-- The supervisor remembers what happens in the course of every schedule. -/
theorem recalls_after (program : Program) (settings : Settings) (schedule : List Mover) :
    ((start program settings).after schedule).supervisor.Recalls
      ((along Event.injections ((start program settings).history schedule)).map Packet.y) := by
  induction schedule with
  | nil => exact ⟨rfl, rfl, fun _ => .nil, fun _ h => by cases h⟩
  | cons mover earlier ih =>
    have hmove := (sound_after program settings earlier).recalls_move ih mover
    rw [← List.map_append, ← along_append] at hmove
    exact hmove

end Intcode.Mesh
