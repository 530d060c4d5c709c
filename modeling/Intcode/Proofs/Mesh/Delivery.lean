import Intcode.Proofs.Mesh.NodeTraffic
import Intcode.Proofs.Mesh.Packets
import Mathlib.Algebra.BigOperators.Ring.Finset

/-!
# Delivery of packets

Packets are delivered whole, in order and once.  Whatever is put into a mailbox is taken in the same
order, and what has not been taken is still waiting or was discarded when the node halted
(`Accounts`).  Of the packets that a node makes up, those for another node that has not halted are
put into its mailbox one after the other (`Ordered`).  `Delivers` sums up what becomes of packets,
and `delivers_after` adds that the events are what goes through the ports of the nodes (`Logs`).
-/

namespace Intcode.Mesh

open Router

/-! ## What becomes of the values in a mailbox -/

/-- The values of the packets that were put into the mailbox of a node, in the order of time. -/
def deposits (k : Nat) (events : List Event) : List Word :=
  (along (Event.arrivals k) events).flatMap fun arrival => arrival.2.values

/-- All that was put into a mailbox has been taken or discarded or is waiting, in this order, and
nothing is discarded before the node halts. -/
structure Accounts (k : Nat) (events : List Event) (r : Router) : Prop where
  deposits : deposits k events = along (Event.taken k) events ++ along (Event.discarded k) events ++
    (r.mailbox k).queue.toList
  discarded : (r.mailbox k).halted = false → along (Event.discarded k) events = []

section Accounts

variable {natAddress : Word} {idlePolls : UInt32} {settings : Settings} {r r' : Router}
  {events : List Event} {event : Event} {i k : Nat}

lemma deposits_cons : deposits k (event :: events) =
    deposits k events ++ (event.arrivals k).flatMap fun arrival => arrival.2.values :=
  List.flatMap_append

/-- Only what the router keeps for a node matters to it. -/
lemma Accounts.congr (h : Accounts k events r)
    (hqueue : (r'.mailbox k).queue = (r.mailbox k).queue)
    (hhalted : (r'.mailbox k).halted = (r.mailbox k).halted) : Accounts k events r' :=
  ⟨by rw [hqueue, h.deposits], fun hlive => h.discarded (hhalted ▸ hlive)⟩

/-- A change of a mailbox that leaves its queue as it is. -/
lemma Accounts.update (h : Accounts k events r) (i : Nat) (f : Mailbox → Mailbox)
    (hqueue : ∀ box, (f box).queue = box.queue) (hhalted : ∀ box, (f box).halted = box.halted) :
    Accounts k events (r.update i f) :=
  h.congr (r.field_update f Mailbox.queue hqueue) (r.field_update f Mailbox.halted hhalted)

/-- An event that has nothing to do with the values in the mailbox of a node. -/
lemma Accounts.skip (h : Accounts k events r) (harrivals : event.arrivals k = [])
    (htaken : event.taken k = []) (hdiscarded : event.discarded k = []) :
    Accounts k (event :: events) r := by
  constructor
  · simp only [deposits_cons, along, harrivals, htaken, hdiscarded, List.append_nil,
      List.flatMap_nil, h.deposits]
  · simpa only [along, hdiscarded, List.append_nil] using h.discarded

lemma Accounts.skip_of_ne (h : Accounts k events r) {f : Mailbox → Mailbox} (hne : i ≠ k)
    (harrivals : event.arrivals k = []) (htaken : event.taken k = [])
    (hdiscarded : event.discarded k = []) : Accounts k (event :: events) (r.update i f) := by
  refine (h.congr ?_ ?_).skip harrivals htaken hdiscarded
  · rw [r.mailbox_update_of_ne f hne.symm]
  · rw [r.mailbox_update_of_ne f hne.symm]

lemma Accounts.take (h : Accounts k events r) {value : Word} {rest : Queue Word}
    (hlive : (r.mailbox i).halted = false)
    (hpop : (r.mailbox i).queue.pop? = some (value, rest)) :
    Accounts k (.took i value :: events) (r.take i rest) := by
  by_cases hik : i = k
  · subst hik
    have htaken : (Event.took i value).taken i = [value] := if_pos rfl
    have hdiscarded := h.discarded hlive
    constructor
    · rw [deposits_cons, h.deposits, Queue.toList_of_pop?_eq_some hpop,
        r.mailbox_take (r.lt_size_of_halted hlive)]
      simp [along, htaken, hdiscarded, Event.arrivals, Event.discarded]
    · intro _
      simp [along, hdiscarded, Event.discarded]
  · exact h.skip_of_ne hik rfl (if_neg hik) rfl

lemma Accounts.deliver (h : Accounts k events r) {sender : Option Nat} {packet : Packet}
    (hlive : (r.mailbox i).halted = false)
    (harrivals : event.arrivals k = if i = k then [(sender, packet)] else [])
    (htaken : event.taken k = []) (hdiscarded : event.discarded k = []) :
    Accounts k (event :: events) (r.deliver i packet) := by
  by_cases hik : i = k
  · subst hik
    rw [if_pos rfl] at harrivals
    constructor
    · rw [deposits_cons, h.deposits, r.mailbox_deliver (r.lt_size_of_halted hlive)]
      simp [along, harrivals, htaken, hdiscarded, Queue.toList_push, Packet.values]
    · intro _
      simp only [along, hdiscarded, h.discarded hlive, List.append_nil]
  · rw [if_neg hik] at harrivals
    exact h.skip_of_ne hik harrivals htaken hdiscarded

lemma Accounts.halt (h : Accounts k events r) (i : Nat) :
    Accounts k (.halted i (r.mailbox i).queue.toList :: events) (r.halt i).2 := by
  by_cases hik : i = k
  · subst hik
    have hdiscarded : (Event.halted i (r.mailbox i).queue.toList).discarded i =
      (r.mailbox i).queue.toList := if_pos rfl
    constructor
    · rw [deposits_cons, h.deposits, r.queue_halt]
      simp [along, hdiscarded, Event.arrivals, Event.taken]
    · intro hlive
      cases hlive.symm.trans r.halted_halt
  · exact h.skip_of_ne hik rfl rfl (if_neg hik)

/-- Every step of the router keeps account of the values in a mailbox. -/
lemma Accounts.step (h : Accounts k events r) (hstep : Step natAddress idlePolls r event r') :
    Accounts k (event :: events) r' := by
  have hnoted (sender : Nat) : Accounts k events (r.noteSender sender) :=
    h.update _ _ (fun _ => rfl) fun _ => rfl
  cases hstep with
  | took _ hlive hpop => exact h.take hlive hpop
  | foundEmpty =>
    refine .skip ?_ rfl rfl rfl
    exact h.update _ _ (fun _ => rfl) fun _ => rfl
  | parked =>
    refine .skip ?_ rfl rfl rfl
    exact h.update _ _ (fun _ => rfl) fun _ => rfl
  | stayed => exact h.skip rfl rfl rfl
  | emitted => exact h.skip rfl rfl rfl
  | @routed sender i packet _ _ hreceiver =>
    refine .congr (r := (r.noteSender sender).deliver i packet) ?_ rfl rfl
    exact Accounts.deliver (hnoted sender) (of_receiver? hreceiver).1 rfl rfl rfl
  | @retained sender =>
    refine .skip ?_ rfl rfl rfl
    exact (hnoted sender).congr rfl rfl
  | @dropped sender => exact (hnoted sender).skip rfl rfl rfl
  | turnedAway => exact h.skip rfl rfl rfl
  | released =>
    refine .skip ?_ rfl rfl rfl
    exact h.update _ _ (fun _ => rfl) fun _ => rfl
  | halted => exact h.halt _
  | failed =>
    refine .skip ?_ rfl rfl rfl
    exact h.congr rfl rfl
  | injected _ _ _ _ hlive => exact h.deliver hlive rfl rfl rfl
  | shutDown =>
    refine .skip ?_ rfl rfl rfl
    exact h.congr rfl rfl

theorem accounts (h : Steps natAddress idlePolls (.start settings) events r) (k : Nat) :
    Accounts k events r := by
  induction h with
  | nil =>
    obtain ⟨halted, hbox⟩ := exists_mailbox_start settings k
    exact ⟨by rw [hbox]; rfl, fun _ => rfl⟩
  | cons _ hstep ih => exact ih.step hstep

/-- A node is told that nothing is waiting for it only between two packets. -/
lemma taken_of_foundEmpty {later earlier : List Event}
    (h : Steps natAddress idlePolls (.start settings) (later ++ .foundEmpty k :: earlier) r) :
    along (Event.taken k) earlier = deposits k earlier := by
  obtain ⟨r₁, _, hearlier, hstep, _⟩ := h.exists_step
  have haccounts := accounts hearlier k
  cases hstep with
  | foundEmpty _ hlive _ hqueue =>
    rw [haccounts.deposits, haccounts.discarded hlive, Queue.isEmpty_iff.1 hqueue]
    simp

end Accounts

/-! ## Packets from one node to another -/

/-- The packets of one node that were put into the mailbox of another, in the order of time. -/
def arrivalsFrom (s k : Nat) (events : List Event) : List Packet :=
  (along (Event.arrivals k) events).filterMap fun arrival =>
    if arrival.1 = some s then some arrival.2 else none

/-- Tells whether a packet is addressed to a node, and not to the NAT. -/
def Packet.isFor (natAddress : Word) (k : Nat) (p : Packet) : Bool :=
  p.destination ≠ natAddress ∧ p.destination.toInt = k

/-- The packets that a node has sent to another are put into its mailbox in the same order, all of
them until that node halts. -/
structure Ordered (natAddress : Word) (s k : Nat) (events : List Event) (r : Router) : Prop where
  before : arrivalsFrom s k events <+:
    (along (Event.sent s) events).filter (Packet.isFor natAddress k)
  live : (r.mailbox k).halted = false → arrivalsFrom s k events =
    (along (Event.sent s) events).filter (Packet.isFor natAddress k)

section Ordered

variable {natAddress : Word} {idlePolls : UInt32} {settings : Settings} {r r' : Router}
  {events : List Event} {event : Event} {s k : Nat}

lemma arrivalsFrom_cons : arrivalsFrom s k (event :: events) =
    arrivalsFrom s k events ++ arrivalsFrom s k [event] :=
  List.filterMap_append

/-- An event that has nothing to do with packets from one node to the other. -/
lemma Ordered.skip (h : Ordered natAddress s k events r)
    (harrivals : arrivalsFrom s k [event] = [])
    (hsent : (event.sent s).filter (Packet.isFor natAddress k) = [])
    (hlive : (r'.mailbox k).halted = false → (r.mailbox k).halted = false) :
    Ordered natAddress s k (event :: events) r' := by
  constructor
  · rw [arrivalsFrom_cons, harrivals, along, List.filter_append, hsent, List.append_nil,
      List.append_nil]
    exact h.before
  · intro hlive'
    rw [arrivalsFrom_cons, harrivals, along, List.filter_append, hsent, List.append_nil,
      List.append_nil]
    exact h.live (hlive hlive')

/-- Whoever is not a receiver of packets has halted or is not there. -/
lemma halted_of_receiver? {address : Word} (h : r.receiver? address = none)
    (hk : address.toInt = k) : (r.mailbox k).halted = true := by
  by_contra hlive
  have hlive : (r.mailbox k).halted = false := by simpa using hlive
  have hsize := r.lt_size_of_halted hlive
  unfold receiver? at h
  rw [hk, Int.toNat_natCast, if_pos ⟨by omega, by omega, by simp [hlive]⟩] at h
  cases h

/-- Every step of the router keeps the packets from one node to the other in order. -/
lemma Ordered.step (h : Ordered natAddress s k events r)
    (hstep : Step natAddress idlePolls r event r') :
    Ordered natAddress s k (event :: events) r' := by
  have hlive (hlive' : (r'.mailbox k).halted = false) : (r.mailbox k).halted = false := by
    rcases hstep.halted_cases k with hsame | ⟨_, _, hhalted⟩
    · exact hsame ▸ hlive'
    · cases hlive'.symm.trans hhalted
  cases hstep with
  | @routed i j p hopen hnat hreceiver =>
    obtain ⟨hlivej, hj⟩ := of_receiver? hreceiver
    by_cases hboth : i = s ∧ j = k
    -- The receiver has not halted, so that nothing has been lost before.
    · obtain ⟨rfl, rfl⟩ := hboth
      have hadded : arrivalsFrom i j [.routed i j p] =
          ((Event.routed i j p).sent i).filter (Packet.isFor natAddress j) := by
        simp [arrivalsFrom, along, Event.arrivals, Event.sent, Packet.isFor, hnat, hj]
      have hsame := h.live (by simpa using hlivej)
      constructor
      · rw [arrivalsFrom_cons, hsame, hadded, ← List.filter_append]
        exact List.prefix_rfl
      · intro _
        rw [arrivalsFrom_cons, hsame, hadded, ← List.filter_append]
        rfl
    · refine h.skip ?_ ?_ hlive
      · simp only [arrivalsFrom, along, Event.arrivals, List.nil_append]
        split
        · next hjk => simp [show i ≠ s from fun his => hboth ⟨his, hjk⟩]
        · rfl
      · simp only [Event.sent]
        split
        · next his =>
          have hjk : (j : Int) ≠ k := fun hjk => hboth ⟨his, Int.ofNat_inj.1 hjk⟩
          simp [Packet.isFor, hj, hjk]
        · rfl
  | @retained i p hopen hnat =>
    refine h.skip rfl ?_ hlive
    simp only [Event.sent]
    split
    · simp [Packet.isFor, hnat]
    · rfl
  | @dropped i p hopen hnat hreceiver =>
    by_cases hlost : p.isFor natAddress k = true
    -- From now on there is a gap, but since the receiver has halted it gets nothing any more.
    · have hk : p.destination.toInt = k := by simpa [Packet.isFor, hnat] using hlost
      have hhalted : (r.mailbox k).halted = true := by
        simpa using halted_of_receiver? hreceiver hk
      constructor
      · rw [arrivalsFrom_cons, along, List.filter_append]
        exact (List.append_nil _).symm ▸ h.before.trans (List.prefix_append _ _)
      · intro hlive'
        cases hhalted.symm.trans (hlive hlive')
    · refine h.skip rfl ?_ hlive
      simp only [Event.sent]
      split
      · simp [hlost]
      · rfl
  | injected =>
    refine h.skip ?_ rfl hlive
    simp only [arrivalsFrom, along, Event.arrivals, List.nil_append]
    split <;> rfl
  | _ => exact h.skip rfl rfl hlive

theorem ordered (h : Steps natAddress idlePolls (.start settings) events r) (s k : Nat) :
    Ordered natAddress s k events r := by
  induction h with
  | nil => exact ⟨List.prefix_rfl, fun _ => rfl⟩
  | cons _ hstep ih => exact ih.step hstep

end Ordered

/-! ## How many packets there are -/

section Counts

variable {natAddress : Word} {idlePolls : UInt32} {settings : Settings} {r : Router}
  {events : List Event}

/-- Every packet that was put into a mailbox was put into that of one node. -/
lemma sum_arrivals (h : Steps natAddress idlePolls (.start settings) events r) :
    ∑ k ∈ Finset.range settings.nodes.toNat, (along (Event.arrivals k) events).length =
      (along Event.routings events).length + (along Event.injections events).length := by
  induction h with
  | nil => simp [along]
  | @cons events event r _ h hstep ih =>
    have hadded : ∑ k ∈ Finset.range settings.nodes.toNat, (event.arrivals k).length =
        event.routings.length + event.injections.length := by
      have hsize (i : Nat) (hlive : (r.mailbox i).halted = false) : i < settings.nodes.toNat := by
        rw [← size_start settings, ← h.size]
        exact r.lt_size_of_halted hlive
      have hone (i : Nat) (hi : i < settings.nodes.toNat) (arrival : Option Nat × Packet) :
          ∑ k ∈ Finset.range settings.nodes.toNat,
            (if i = k then [arrival] else []).length = 1 := by
        simp [apply_ite List.length, hi]
      cases hstep with
      | @routed _ i p _ _ hreceiver =>
        exact hone i (hsize i (by simpa using (of_receiver? hreceiver).1)) _
      | injected _ _ _ _ hlive => exact hone 0 (hsize 0 hlive) _
      | _ => simp [Event.arrivals, Event.routings, Event.injections]
    simp only [along, List.length_append, Finset.sum_add_distrib, ih, hadded]
    omega

lemma length_deposits (k : Nat) (events : List Event) :
    (deposits k events).length = 2 * (along (Event.arrivals k) events).length := by
  unfold deposits
  rw [List.length_flatMap]
  simp [Packet.values, Nat.mul_comm]

/-- Every packet that was put into a mailbox accounts for two values that have been taken or
discarded or are waiting. -/
lemma two_mul_packets (h : Steps natAddress idlePolls (.start settings) events r) :
    2 * ((along Event.routings events).length + (along Event.injections events).length) =
      ∑ k ∈ Finset.range settings.nodes.toNat, ((along (Event.taken k) events).length +
        (along (Event.discarded k) events).length + (r.mailbox k).queue.toList.length) := by
  rw [← sum_arrivals h, Finset.mul_sum]
  refine Finset.sum_congr rfl fun k _ => ?_
  rw [← length_deposits, (accounts h k).deposits, List.length_append, List.length_append]

end Counts

/-! ## What becomes of packets -/

/-- What becomes of the packets in a mesh with some events, latest first, behind it. -/
structure Delivers (settings : Settings) (events : List Event) (m : Mesh) : Prop where
  /-- A node takes the values of the packets that were put into its mailbox, in their order. -/
  taken : ∀ k, along (Event.taken k) events <+: deposits k events
  /-- What it has not taken was discarded when it halted, or is waiting. -/
  deposits : ∀ k, deposits k events = along (Event.taken k) events ++
    along (Event.discarded k) events ++ (m.router.mailbox k).queue.toList
  /-- When a node is told that nothing is waiting for it, it has taken all packets as a whole. -/
  whole : ∀ k later earlier, events = later ++ .foundEmpty k :: earlier →
    along (Event.taken k) earlier = Mesh.deposits k earlier
  /-- The router deals with the packets of a node once each, in the order of their completion. -/
  sent : ∀ s, along (Event.sent s) events <+: packets (along (Event.emissions s) events)
  /-- It deals with all of them unless the mesh is coming to its end. -/
  sent_all : ∀ s, m.router.shutdown = false →
    along (Event.sent s) events = packets (along (Event.emissions s) events)
  /-- The packets from one node to another are put into its mailbox in that order. -/
  ordered : ∀ s k, arrivalsFrom s k events <+:
    (packets (along (Event.emissions s) events)).filter (Packet.isFor settings.natAddress k)
  /-- All of them are, unless that node has halted or the mesh is coming to its end. -/
  ordered_all : ∀ s k, m.router.shutdown = false → (m.router.mailbox k).halted = false →
    arrivalsFrom s k events =
      (packets (along (Event.emissions s) events)).filter (Packet.isFor settings.natAddress k)
  /-- A packet is dropped only if it is not for the NAT and no node has its address, or that node
  has halted. -/
  dropped : ∀ s (p : Packet) later earlier, events = later ++ .dropped s p :: earlier →
    p.destination ≠ settings.natAddress ∧ ∀ k < settings.nodes.toNat, p.destination.toInt = k →
      ∃ values, .halted k values ∈ earlier
  /-- A node is turned away only if the mesh is coming to its end. -/
  turnedAway : ∀ k later earlier, events = later ++ .turnedAway k :: earlier →
    .shutDown ∈ earlier
  /-- Every packet from a node or the NAT accounts for two values. -/
  counted : 2 * (m.router.routed + m.supervisor.injections) =
    ∑ k ∈ Finset.range settings.nodes.toNat, ((along (Event.taken k) events).length +
      (m.router.mailbox k).queue.toList.length + (along (Event.discarded k) events).length)

/-- After every schedule packets have been delivered whole, in order and once.  The events that tell
so are what goes through the ports of the nodes: what a node has taken, with minus one whenever
nothing was waiting for it, is what its machine has been handed, and what it has emitted is what its
machine has offered. -/
theorem delivers_after (program : Program) (settings : Settings) (schedule : List Mover) :
    Delivers settings ((start program settings).history schedule)
        ((start program settings).after schedule) ∧
      ∀ k, Logs k ((start program settings).traffic k schedule)
        ((start program settings).history schedule) := by
  refine ⟨?_, logs_after program settings schedule⟩
  have hsteps := steps_after program settings schedule
  have hcomposes := composes_after program settings schedule
  have hinjections := (recalls_after program settings schedule).injections
  have hordered (s k : Nat) := ordered hsteps s k
  constructor
  case taken =>
    intro k
    rw [(accounts hsteps k).deposits, List.append_assoc]
    exact List.prefix_append _ _
  case deposits => exact fun k => (accounts hsteps k).deposits
  case whole =>
    intro k later earlier hevents
    exact taken_of_foundEmpty (hevents ▸ hsteps)
  case sent => exact fun s => (hcomposes s).sent_isPrefix
  case sent_all => exact fun s => (hcomposes s).sent_eq
  case ordered =>
    exact fun s k => (hordered s k).before.trans ((hcomposes s).sent_isPrefix.filter _)
  case ordered_all =>
    intro s k hopen hlive
    rw [(hordered s k).live hlive, (hcomposes s).sent_eq hopen]
  case dropped =>
    intro s p later earlier hevents
    obtain ⟨r, _, hearlier, hstep, _⟩ := (hevents ▸ hsteps).exists_step
    cases hstep with
    | dropped _ hnat hreceiver =>
      refine ⟨hnat, fun k hk haddress => hearlier.exists_halted hk ?_⟩
      simpa using halted_of_receiver? hreceiver haddress
  case turnedAway =>
    intro k later earlier hevents
    obtain ⟨r, _, hearlier, hstep, _⟩ := (hevents ▸ hsteps).exists_step
    refine hearlier.shutdown_iff.1 ?_
    cases hstep with
    | turnedAway hclosed => exact hclosed
    | released hclosed => exact hclosed
  case counted =>
    rw [hsteps.routed, hinjections, List.length_map, two_mul_packets hsteps]
    exact Finset.sum_congr rfl fun k _ => Nat.add_right_comm _ _ _

end Intcode.Mesh
