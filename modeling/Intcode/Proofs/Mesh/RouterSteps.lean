import Intcode.Mesh.Basic
import Mathlib.Data.List.Basic

/-!
# Steps of a router

What an event does to the router of a mesh, and when it can happen.  `Router.Step` has a rule for
each kind of event: its premises are all that the router has checked, and its result is the router
afterwards.  Polling a router and routing a packet are such steps (`step_pollAwake`,
`step_pollParked`, `step_route`).
-/

namespace Intcode.Mesh

/-- The node that does something, unless it is the supervisor. -/
def Event.actor? : Event → Option Nat
  | .took k _ | .foundEmpty k | .parked k | .stayed k | .emitted k _ | .routed k _ _
  | .retained k _ | .dropped k _ | .turnedAway k | .halted k _ | .failed k _ => some k
  | .injected _ | .shutDown => none

namespace Router

/-! ## Mailboxes -/

section Mailbox

variable (r : Router) {i k : Nat} (f g : Mailbox → Mailbox)

@[simp] lemma size_update : (r.update k f).mailboxes.size = r.mailboxes.size := Array.size_modify

lemma mailbox_eq_of_getElem? {box : Mailbox} (h : r.mailboxes[k]? = some box) :
    r.mailbox k = box := by
  unfold mailbox
  rw [Array.getD_eq_getD_getElem?, h]
  rfl

lemma getElem?_mailboxes (hk : k < r.mailboxes.size) :
    r.mailboxes[k]? = some (r.mailbox k) := by
  rw [Array.getElem?_eq_getElem hk]
  exact congrArg some (r.mailbox_eq_of_getElem? (Array.getElem?_eq_getElem hk)).symm

/-- A node that there is not counts as halted, with nothing waiting for it. -/
lemma mailbox_of_size_le (hk : r.mailboxes.size ≤ k) : r.mailbox k = ⟨.empty, 0, false, true⟩ := by
  unfold mailbox
  rw [Array.getD_eq_getD_getElem?, Array.getElem?_eq_none hk]
  rfl

lemma lt_size_of_halted (h : (r.mailbox k).halted = false) : k < r.mailboxes.size := by
  by_contra hk
  rw [r.mailbox_of_size_le (Nat.le_of_not_lt hk)] at h
  cases h

lemma mailbox_update_self (hk : k < r.mailboxes.size) :
    (r.update k f).mailbox k = f (r.mailbox k) := by
  refine mailbox_eq_of_getElem? _ ?_
  unfold update
  rw [Array.getElem?_modify, if_pos rfl, r.getElem?_mailboxes hk]
  rfl

lemma mailbox_update_of_ne (h : i ≠ k) : (r.update k f).mailbox i = r.mailbox i := by
  unfold mailbox update
  rw [Array.getD_eq_getD_getElem?, Array.getD_eq_getD_getElem?, Array.getElem?_modify,
    if_neg h.symm]

/-- A part of a mailbox that a change leaves alone stays as it is in all mailboxes. -/
lemma field_update {α : Type} (field : Mailbox → α) (h : ∀ box, field (f box) = field box) :
    field ((r.update k f).mailbox i) = field (r.mailbox i) := by
  by_cases hik : i = k
  · subst hik
    by_cases hi : i < r.mailboxes.size
    · rw [r.mailbox_update_self f hi, h]
    · have hi := Nat.le_of_not_lt hi
      rw [r.mailbox_of_size_le hi, mailbox_of_size_le _ (by rwa [size_update])]
  · rw [r.mailbox_update_of_ne f hik]

/-- All that a change of a mailbox depends on is what becomes of that mailbox. -/
lemma update_congr (h : f (r.mailbox k) = g (r.mailbox k)) : r.update k f = r.update k g := by
  unfold update
  congr 1
  refine Array.ext_getElem? fun j => ?_
  rw [Array.getElem?_modify, Array.getElem?_modify]
  split
  · next hjk =>
    subst hjk
    cases hbox : r.mailboxes[k]? with
    | none => rfl
    | some box =>
      rw [r.mailbox_eq_of_getElem? hbox] at h
      exact congrArg some h
  · rfl

end Mailbox

lemma size_start (settings : Settings) :
    (start settings).mailboxes.size = settings.nodes.toNat := Array.size_replicate

lemma mailbox_start {settings : Settings} {k : Nat} (hk : k < settings.nodes.toNat) :
    (start settings).mailbox k = ⟨.empty, 0, false, false⟩ := by
  refine mailbox_eq_of_getElem? _ ?_
  change (Array.replicate settings.nodes.toNat _)[k]? = _
  rw [Array.getElem?_replicate, if_pos hk]

/-- In the beginning nothing is waiting and nobody has polled, whether there is such a node or
not. -/
lemma exists_mailbox_start (settings : Settings) (k : Nat) :
    ∃ halted, (start settings).mailbox k = ⟨.empty, 0, false, halted⟩ := by
  by_cases hk : k < settings.nodes.toNat
  · exact ⟨false, mailbox_start hk⟩
  · refine ⟨true, mailbox_of_size_le _ ?_⟩
    rw [size_start]
    exact Nat.le_of_not_lt hk

/-! ## Steps -/

/-- The router after a node has polled an empty queue. -/
def noteEmptyPoll (k : Nat) (r : Router) : Router :=
  r.update k fun box => { box with emptyPolls := box.emptyPolls + 1 }

/-- The router after a node has been parked. -/
def park (k : Nat) (r : Router) : Router :=
  r.update k fun box => { box with emptyPolls := box.emptyPolls + 1, parked := true }

/-- The router after a node has got a value, with the rest of its queue. -/
def take (k : Nat) (rest : Queue Word) (r : Router) : Router :=
  r.update k fun box => { box with queue := rest, parked := false, emptyPolls := 0 }

/-- The router after a parked node has been sent away. -/
def release (k : Nat) (r : Router) : Router :=
  r.update k fun box => { box with parked := false, emptyPolls := 0 }

/-- The router after a node has sent a packet, before it is passed on. -/
def noteSender (k : Nat) (r : Router) : Router :=
  r.update k fun box => { box with emptyPolls := 0 }

/-- The router with another packet for the NAT. -/
def retain (packet : Packet) (r : Router) : Router :=
  { r with nat := some packet, firstNatY := r.firstNatY.or (some packet.y) }

section Operations

variable (r : Router) {i k : Nat}

lemma mailbox_noteEmptyPoll (hk : k < r.mailboxes.size) :
    (r.noteEmptyPoll k).mailbox k =
      { r.mailbox k with emptyPolls := (r.mailbox k).emptyPolls + 1 } :=
  r.mailbox_update_self _ hk

lemma mailbox_park (hk : k < r.mailboxes.size) :
    (r.park k).mailbox k =
      { r.mailbox k with emptyPolls := (r.mailbox k).emptyPolls + 1, parked := true } :=
  r.mailbox_update_self _ hk

lemma mailbox_take (hk : k < r.mailboxes.size) (rest : Queue Word) :
    (r.take k rest).mailbox k =
      { r.mailbox k with queue := rest, parked := false, emptyPolls := 0 } :=
  r.mailbox_update_self _ hk

lemma mailbox_release (hk : k < r.mailboxes.size) :
    (r.release k).mailbox k = { r.mailbox k with parked := false, emptyPolls := 0 } :=
  r.mailbox_update_self _ hk

lemma mailbox_noteSender (hk : k < r.mailboxes.size) :
    (r.noteSender k).mailbox k = { r.mailbox k with emptyPolls := 0 } :=
  r.mailbox_update_self _ hk

lemma mailbox_deliver (hk : k < r.mailboxes.size) (packet : Packet) :
    (r.deliver k packet).mailbox k =
      { r.mailbox k with queue := ((r.mailbox k).queue.push packet.x).push packet.y } :=
  r.mailbox_update_self _ hk

lemma mailbox_halt (hk : k < r.mailboxes.size) :
    (r.halt k).2.mailbox k =
      { r.mailbox k with halted := true, queue := (r.mailbox k).queue.clear } :=
  r.mailbox_update_self _ hk

/-- Nothing waits for a node that has halted. -/
lemma queue_halt : ((r.halt k).2.mailbox k).queue.toList = [] := by
  by_cases hk : k < r.mailboxes.size
  · rw [r.mailbox_halt hk, Queue.toList_clear]
  · rw [mailbox_of_size_le _ (by rw [halt, size_update]; exact Nat.le_of_not_lt hk),
      Queue.toList_empty]

lemma halted_halt : ((r.halt k).2.mailbox k).halted = true := by
  by_cases hk : k < r.mailboxes.size
  · rw [r.mailbox_halt hk]
  · rw [mailbox_of_size_le _ (by rw [halt, size_update]; exact Nat.le_of_not_lt hk)]

@[simp] lemma parked_noteSender : ((r.noteSender k).mailbox i).parked = (r.mailbox i).parked :=
  r.field_update _ Mailbox.parked fun _ => rfl

@[simp] lemma halted_noteSender : ((r.noteSender k).mailbox i).halted = (r.mailbox i).halted :=
  r.field_update _ Mailbox.halted fun _ => rfl

@[simp] lemma queue_noteSender : ((r.noteSender k).mailbox i).queue = (r.mailbox i).queue :=
  r.field_update _ Mailbox.queue fun _ => rfl

@[simp] lemma emptyPolls_deliver (packet : Packet) :
    ((r.deliver k packet).mailbox i).emptyPolls = (r.mailbox i).emptyPolls :=
  r.field_update _ Mailbox.emptyPolls fun _ => rfl

@[simp] lemma parked_deliver (packet : Packet) :
    ((r.deliver k packet).mailbox i).parked = (r.mailbox i).parked :=
  r.field_update _ Mailbox.parked fun _ => rfl

@[simp] lemma halted_deliver (packet : Packet) :
    ((r.deliver k packet).mailbox i).halted = (r.mailbox i).halted :=
  r.field_update _ Mailbox.halted fun _ => rfl

@[simp] lemma mailbox_countRouted : r.countRouted.mailbox i = r.mailbox i := rfl

@[simp] lemma mailbox_retain (packet : Packet) : (r.retain packet).mailbox i = r.mailbox i := rfl

end Operations

/-- What an event does to a router, and when it can happen. -/
inductive Step (natAddress : Word) (idlePolls : UInt32) (r : Router) : Event → Router → Prop
  | took {k : Nat} {value : Word} {rest : Queue Word} (hopen : r.shutdown = false)
    (hlive : (r.mailbox k).halted = false)
    (hqueue : (r.mailbox k).queue.pop? = some (value, rest)) :
    Step natAddress idlePolls r (.took k value) (r.take k rest)
  | foundEmpty {k : Nat} (hopen : r.shutdown = false) (hlive : (r.mailbox k).halted = false)
    (hawake : (r.mailbox k).parked = false) (hqueue : (r.mailbox k).queue.isEmpty = true)
    (hfew : (r.mailbox k).emptyPolls + 1 < idlePolls) :
    Step natAddress idlePolls r (.foundEmpty k) (r.noteEmptyPoll k)
  | parked {k : Nat} (hopen : r.shutdown = false) (hlive : (r.mailbox k).halted = false)
    (hawake : (r.mailbox k).parked = false) (hqueue : (r.mailbox k).queue.isEmpty = true)
    (hmany : ¬ (r.mailbox k).emptyPolls + 1 < idlePolls) :
    Step natAddress idlePolls r (.parked k) (r.park k)
  | stayed {k : Nat} (hopen : r.shutdown = false) (hparked : (r.mailbox k).parked = true)
    (hqueue : (r.mailbox k).queue.isEmpty = true) : Step natAddress idlePolls r (.stayed k) r
  | emitted {k : Nat} {value : Word} : Step natAddress idlePolls r (.emitted k value) r
  | routed {sender k : Nat} {packet : Packet} (hopen : r.shutdown = false)
    (hnat : packet.destination ≠ natAddress)
    (hreceiver : (r.noteSender sender).receiver? packet.destination = some k) :
    Step natAddress idlePolls r (.routed sender k packet)
      ((r.noteSender sender).deliver k packet).countRouted
  | retained {sender : Nat} {packet : Packet} (hopen : r.shutdown = false)
    (hnat : packet.destination = natAddress) :
    Step natAddress idlePolls r (.retained sender packet) ((r.noteSender sender).retain packet)
  | dropped {sender : Nat} {packet : Packet} (hopen : r.shutdown = false)
    (hnat : packet.destination ≠ natAddress)
    (hreceiver : (r.noteSender sender).receiver? packet.destination = none) :
    Step natAddress idlePolls r (.dropped sender packet) (r.noteSender sender)
  | turnedAway {k : Nat} (hclosed : r.shutdown = true) :
    Step natAddress idlePolls r (.turnedAway k) r
  | released {k : Nat} (hclosed : r.shutdown = true) (hparked : (r.mailbox k).parked = true) :
    Step natAddress idlePolls r (.turnedAway k) (r.release k)
  | halted {k : Nat} :
    Step natAddress idlePolls r (.halted k (r.mailbox k).queue.toList) (r.halt k).2
  | failed {k : Nat} {cause : Fault} :
    Step natAddress idlePolls r (.failed k cause) (r.fail k cause).2
  | injected {packet : Packet} (hopen : r.shutdown = false) (hfine : r.failure = none)
    (hidle : r.isIdle = true) (hnat : r.nat = some packet)
    (hlive : (r.mailbox 0).halted = false) :
    Step natAddress idlePolls r (.injected packet) (r.deliver 0 packet)
  | shutDown : Step natAddress idlePolls r .shutDown { r with shutdown := true }

/-- What events do to a router one after the other, latest first. -/
inductive Steps (natAddress : Word) (idlePolls : UInt32) (r : Router) :
    List Event → Router → Prop
  | nil : Steps natAddress idlePolls r [] r
  | cons {events : List Event} {event : Event} {r' r'' : Router}
    (h : Steps natAddress idlePolls r events r') (hstep : Step natAddress idlePolls r' event r'') :
    Steps natAddress idlePolls r (event :: events) r''

variable {natAddress : Word} {idlePolls : UInt32} {r r' : Router} {k : Nat}

lemma Step.steps {event : Event} (h : Step natAddress idlePolls r event r') :
    Steps natAddress idlePolls r [event] r' := .cons .nil h

lemma Steps.append {events more : List Event} {r'' : Router}
    (h : Steps natAddress idlePolls r events r')
    (hmore : Steps natAddress idlePolls r' more r'') :
    Steps natAddress idlePolls r (more ++ events) r'' := by
  induction hmore with
  | nil => exact h
  | cons _ hstep ih => exact .cons ih hstep

/-! ## Operations are steps -/

/-- What happens when a node gets an answer to its poll. -/
def Reply.event (k : Nat) : Reply → Event
  | .value v => .took k v
  | .empty => .foundEmpty k
  | .park => .parked k
  | .stay => .stayed k
  | .closed => .turnedAway k

/-- A poll of a node that is not parked is a step. -/
lemma step_pollAwake (natAddress : Word) {reply : Reply} (hlive : (r.mailbox k).halted = false)
    (hawake : (r.mailbox k).parked = false) (h : r.poll idlePolls k = (reply, r')) :
    Step natAddress idlePolls r (reply.event k) r' ∧ reply ≠ .stay ∧
      (reply = .closed → r.shutdown = true ∧ r' = r) := by
  unfold poll at h
  rw [if_neg (by simp [hawake])] at h
  unfold pollAwake at h
  cases hopen : r.shutdown with
  | true =>
    rw [if_pos hopen] at h
    cases h
    exact ⟨.turnedAway hopen, by simp, by simp⟩
  | false =>
    rw [if_neg (by simp [hopen])] at h
    cases hpop : (r.mailbox k).queue.pop? with
    | some popped =>
      rw [hpop] at h
      cases h
      have htake : r.take k popped.2 =
          r.update k fun box => { box with queue := popped.2, emptyPolls := 0 } :=
        r.update_congr _ _ (by rw [hawake])
      refine ⟨?_, by simp, by simp⟩
      rw [← htake]
      exact .took hopen hlive hpop
    | none =>
      have hempty := Queue.pop?_eq_none_iff.1 hpop
      rw [hpop] at h
      simp only at h
      split at h
      · next hfew =>
        cases h
        have hnote : r.noteEmptyPoll k =
            r.update k fun box => { box with emptyPolls := (r.mailbox k).emptyPolls + 1 } :=
          r.update_congr _ _ rfl
        refine ⟨?_, by simp, by simp⟩
        rw [← hnote]
        exact .foundEmpty hopen hlive hawake hempty hfew
      · next hmany =>
        cases h
        have hpark : r.park k = r.update k fun box =>
            { box with emptyPolls := (r.mailbox k).emptyPolls + 1, parked := true } :=
          r.update_congr _ _ rfl
        refine ⟨?_, by simp, by simp⟩
        rw [← hpark]
        exact .parked hopen hlive hawake hempty hmany

/-- What a parked node does when it wakes up is a step. -/
lemma step_pollParked (natAddress : Word) {reply : Reply} (hlive : (r.mailbox k).halted = false)
    (hparked : (r.mailbox k).parked = true) (h : r.poll idlePolls k = (reply, r')) :
    Step natAddress idlePolls r (reply.event k) r' ∧ reply ≠ .empty ∧ reply ≠ .park ∧
      (reply = .closed → r.shutdown = true ∧ r' = r.release k) := by
  unfold poll at h
  rw [if_pos hparked] at h
  unfold pollParked at h
  cases hopen : r.shutdown with
  | true =>
    have hreleased : (Reply.closed, r.release k) = (reply, r') := by
      rw [← h]
      cases (r.mailbox k).queue.pop? with
      | some popped => exact (if_pos hopen).symm
      | none => exact (if_pos hopen).symm
    cases hreleased
    exact ⟨.released hopen hparked, by simp, by simp, by simp⟩
  | false =>
    cases hpop : (r.mailbox k).queue.pop? with
    | some popped =>
      rw [hpop] at h
      simp only [hopen] at h
      cases h
      exact ⟨.took hopen hlive hpop, by simp, by simp, by simp⟩
    | none =>
      have hempty := Queue.pop?_eq_none_iff.1 hpop
      rw [hpop] at h
      simp only [hopen] at h
      cases h
      exact ⟨.stayed hopen hparked hempty, by simp, by simp, by simp⟩

/-- An event that says what has become of a packet that a node has sent. -/
inductive Hands (sender : Nat) (packet : Packet) : Event → Prop
  | routed {k : Nat} : Hands sender packet (.routed sender k packet)
  | retained : Hands sender packet (.retained sender packet)
  | dropped : Hands sender packet (.dropped sender packet)

/-- Routing a packet is a step, unless its sender is turned away. -/
lemma step_route {packet : Packet} {event : Event}
    (h : r.route natAddress k packet = (event, r')) :
    event = .turnedAway k ∧ r' = r ∧ r.shutdown = true ∨
      Hands k packet event ∧ Step natAddress idlePolls r event r' := by
  unfold route at h
  cases hopen : r.shutdown with
  | true =>
    rw [if_pos hopen] at h
    cases h
    exact Or.inl ⟨rfl, rfl, rfl⟩
  | false =>
    rw [if_neg (by simp [hopen])] at h
    simp only at h
    right
    split at h
    · next hnat =>
      cases h
      exact ⟨.retained, .retained hopen hnat⟩
    · next hnat =>
      split at h
      · next receiver hreceiver =>
        cases h
        exact ⟨.routed, .routed hopen hnat hreceiver⟩
      · next hreceiver =>
        cases h
        exact ⟨.dropped, .dropped hopen hnat hreceiver⟩

/-! ## What a step leaves as it is -/

/-- What a node can rely on while others act: its mailbox stays as it is, except that values may be
put into it, and the mesh may come to its end.  Both wake it up. -/
structure Keeps (wakes : Bool) (r r' : Router) (i : Nat) : Prop where
  emptyPolls : (r'.mailbox i).emptyPolls = (r.mailbox i).emptyPolls
  parked : (r'.mailbox i).parked = (r.mailbox i).parked
  halted : (r'.mailbox i).halted = (r.mailbox i).halted
  queue : (r'.mailbox i).queue = (r.mailbox i).queue ∨ wakes = true ∧ (r.mailbox i).halted = false
  failure : r.failure ≠ none → r'.failure ≠ none
  shutdown : r'.shutdown = r.shutdown ∨ wakes = true ∧ r'.shutdown = true

variable {i : Nat}

lemma Keeps.rfl : Keeps false r r i :=
  ⟨.refl _, .refl _, .refl _, .inl (.refl _), id, .inl (.refl _)⟩

lemma Keeps.trans {wakes wakes' : Bool} {r'' : Router} (h : Keeps wakes r r' i)
    (h' : Keeps wakes' r' r'' i) : Keeps (wakes' || wakes) r r'' i where
  emptyPolls := h'.emptyPolls.trans h.emptyPolls
  parked := h'.parked.trans h.parked
  halted := h'.halted.trans h.halted
  queue := by
    rcases h'.queue with hqueue' | ⟨hwakes', hlive⟩
    · rcases h.queue with hqueue | ⟨hwakes, hlive⟩
      · exact Or.inl (hqueue'.trans hqueue)
      · exact Or.inr ⟨by rw [hwakes, Bool.or_true], hlive⟩
    · exact Or.inr ⟨by rw [hwakes', Bool.true_or], h.halted ▸ hlive⟩
  failure := h'.failure ∘ h.failure
  shutdown := by
    rcases h'.shutdown with hshut' | ⟨hwakes', hshut'⟩
    · rcases h.shutdown with hshut | ⟨hwakes, hshut⟩
      · exact Or.inl (hshut'.trans hshut)
      · exact Or.inr ⟨by rw [hwakes, Bool.or_true], hshut'.trans hshut⟩
    · exact Or.inr ⟨by rw [hwakes', Bool.true_or], hshut'⟩

lemma Keeps.mono {wakes : Bool} (h : Keeps false r r' i) : Keeps wakes r r' i where
  emptyPolls := h.emptyPolls
  parked := h.parked
  halted := h.halted
  queue := Or.inl (h.queue.resolve_right (by simp))
  failure := h.failure
  shutdown := Or.inl (h.shutdown.resolve_right (by simp))

/-- A node can rely on its mailbox whatever else the router notes. -/
lemma Keeps.congr {wakes : Bool} {r'' : Router} (h : Keeps wakes r r' i)
    (hboxes : r''.mailboxes = r'.mailboxes) (hfailure : r''.failure = r'.failure)
    (hshut : r''.shutdown = r'.shutdown) : Keeps wakes r r'' i := by
  have hbox : r''.mailbox i = r'.mailbox i := by
    unfold mailbox
    rw [hboxes]
  constructor
  · rw [hbox]
    exact h.emptyPolls
  · rw [hbox]
    exact h.parked
  · rw [hbox]
    exact h.halted
  · rw [hbox]
    exact h.queue
  · rw [hfailure]
    exact h.failure
  · rw [hshut]
    exact h.shutdown

/-- A change of another mailbox keeps everything. -/
lemma keeps_update (h : i ≠ k) (f : Mailbox → Mailbox) : Keeps false r (r.update k f) i where
  emptyPolls := by rw [r.mailbox_update_of_ne f h]
  parked := by rw [r.mailbox_update_of_ne f h]
  halted := by rw [r.mailbox_update_of_ne f h]
  queue := Or.inl (by rw [r.mailbox_update_of_ne f h])
  failure := id
  shutdown := Or.inl (Eq.refl _)

/-- A delivery to a node that has not halted may be to any node. -/
lemma keeps_deliver (hlive : (r.mailbox k).halted = false) (packet : Packet) (i : Nat) :
    Keeps true r (r.deliver k packet) i where
  emptyPolls := r.emptyPolls_deliver packet
  parked := r.parked_deliver packet
  halted := r.halted_deliver packet
  queue := by
    by_cases h : i = k
    · subst h
      exact Or.inr ⟨Eq.refl _, hlive⟩
    · exact Or.inl (by unfold deliver; rw [r.mailbox_update_of_ne _ h])
  failure := id
  shutdown := Or.inl (Eq.refl _)

/-- A packet is passed on to the node that has its address, which has not halted. -/
lemma of_receiver? {address : Word} (h : r.receiver? address = some k) :
    (r.mailbox k).halted = false ∧ address.toInt = k := by
  unfold receiver? at h
  split at h
  · next hlive =>
    cases h
    obtain ⟨hneg, _, hlive⟩ := hlive
    exact ⟨by simpa using hlive, (Int.toNat_of_nonneg hneg).symm⟩
  · cases h

/-- While others act, a node can rely on its mailbox. -/
lemma Step.keeps {event : Event} (h : Step natAddress idlePolls r event r')
    (hi : event.actor? ≠ some i) : Keeps event.wakes r r' i := by
  have hne {k : Nat} (h : some k ≠ some i) : i ≠ k := fun heq => h (congrArg some heq.symm)
  cases h with
  | took => exact keeps_update (hne hi) _
  | foundEmpty => exact keeps_update (hne hi) _
  | parked => exact (keeps_update (hne hi) _).mono
  | stayed => exact .rfl
  | emitted => exact .rfl
  | @routed sender _ packet _ _ hreceiver =>
    have hsent : Keeps false r (r.noteSender sender) i := keeps_update (hne hi) _
    have hdelivered := hsent.trans (keeps_deliver (of_receiver? hreceiver).1 packet i)
    exact hdelivered.congr (.refl _) (.refl _) (.refl _)
  | @retained sender packet =>
    have hsent : Keeps false r (r.noteSender sender) i := keeps_update (hne hi) _
    exact hsent.congr (.refl _) (.refl _) (.refl _)
  | dropped => exact keeps_update (hne hi) _
  | turnedAway => exact .rfl
  | released => exact keeps_update (hne hi) _
  | halted => exact (keeps_update (hne hi) _).mono
  | @failed k cause =>
    refine ⟨.refl _, .refl _, .refl _, .inl (.refl _), fun h => ?_, .inl (.refl _)⟩
    change r.failure.or (some (k, cause)) ≠ none
    simp
  | injected _ _ _ _ hlive => exact keeps_deliver hlive _ i
  | shutDown => exact ⟨.refl _, .refl _, .refl _, .inl (.refl _), id, .inr ⟨.refl _, .refl _⟩⟩

lemma Steps.keeps {events : List Event} (h : Steps natAddress idlePolls r events r')
    (hi : ∀ event ∈ events, event.actor? ≠ some i) : Keeps (events.any Event.wakes) r r' i := by
  induction h with
  | nil => exact .rfl
  | cons _ hstep ih =>
    rw [List.any_cons]
    exact (ih fun event hmem => hi event (List.mem_cons_of_mem _ hmem)).trans
      (hstep.keeps (hi _ List.mem_cons_self))

/-- Only its own report makes a node count as halted. -/
lemma Step.halted_cases {event : Event} (h : Step natAddress idlePolls r event r') (k : Nat) :
    (r'.mailbox k).halted = (r.mailbox k).halted ∨
      ∃ values, event = .halted k values ∧ (r'.mailbox k).halted = true := by
  have hupdate (i : Nat) (f : Mailbox → Mailbox) (hf : ∀ box, (f box).halted = box.halted) :
      ((r.update i f).mailbox k).halted = (r.mailbox k).halted := r.field_update f Mailbox.halted hf
  cases h with
  | took => exact Or.inl (hupdate _ _ fun _ => rfl)
  | foundEmpty => exact Or.inl (hupdate _ _ fun _ => rfl)
  | parked => exact Or.inl (hupdate _ _ fun _ => rfl)
  | released => exact Or.inl (hupdate _ _ fun _ => rfl)
  | routed => exact Or.inl (by simp)
  | retained => exact Or.inl (by simp)
  | dropped => exact Or.inl (by simp)
  | injected => exact Or.inl (by simp)
  | @halted i =>
    by_cases hk : k = i
    · subst hk
      exact Or.inr ⟨_, rfl, r.halted_halt⟩
    · exact Or.inl (congrArg Mailbox.halted (r.mailbox_update_of_ne _ hk))
  | _ => exact Or.inl rfl

/-- A step leaves the number of mailboxes as it is. -/
lemma Step.size {event : Event} (h : Step natAddress idlePolls r event r') :
    r'.mailboxes.size = r.mailboxes.size := by
  cases h <;> simp [take, noteEmptyPoll, park, release, noteSender, retain, deliver, countRouted,
    halt, fail]

lemma Steps.size {events : List Event} (h : Steps natAddress idlePolls r events r') :
    r'.mailboxes.size = r.mailboxes.size := by
  induction h with
  | nil => rfl
  | cons _ hstep ih => exact hstep.size.trans ih

/-- A router is shut down by the supervisor alone. -/
lemma Step.shutdown {event : Event} (h : Step natAddress idlePolls r event r')
    (hevent : event ≠ .shutDown) : r'.shutdown = r.shutdown := by
  cases h with
  | shutDown => exact absurd rfl hevent
  | _ => rfl

lemma Steps.shutdown {events : List Event} (h : Steps natAddress idlePolls r events r')
    (hevents : .shutDown ∉ events) : r'.shutdown = r.shutdown := by
  induction h with
  | nil => rfl
  | cons _ hstep ih =>
    rw [List.mem_cons, not_or] at hevents
    exact (hstep.shutdown (Ne.symm hevents.1)).trans (ih hevents.2)

/-- A router that has been shut down stays so. -/
lemma Step.shutdown_mono {event : Event} (h : Step natAddress idlePolls r event r')
    (hclosed : r.shutdown = true) : r'.shutdown = true := by
  by_cases hevent : event = .shutDown
  · subst hevent
    cases h
    rfl
  · rw [h.shutdown hevent, hclosed]

lemma Steps.shutdown_mono {events : List Event} (h : Steps natAddress idlePolls r events r')
    (hclosed : r.shutdown = true) : r'.shutdown = true := by
  induction h with
  | nil => exact hclosed
  | cons _ hstep ih => exact hstep.shutdown_mono ih

/-! ## Idleness -/

/-- The mesh is idle, or a node has failed: the supervisor has something to do. -/
def IsDue (r : Router) : Prop := r.isIdle = true ∨ r.failure ≠ none

/-- A mesh is idle exactly if nothing waits for any node, and every node is parked or has halted. -/
lemma isIdle_iff : r.isIdle = true ↔ ∀ k, (r.mailbox k).queue.isEmpty = true ∧
    ((r.mailbox k).parked = true ∨ (r.mailbox k).halted = true) := by
  unfold isIdle
  rw [Array.all_eq_true]
  constructor
  · intro h k
    by_cases hk : k < r.mailboxes.size
    · have hbox := h k hk
      rw [← r.mailbox_eq_of_getElem? (Array.getElem?_eq_getElem hk)] at hbox
      simpa using hbox
    · rw [r.mailbox_of_size_le (Nat.le_of_not_lt hk)]
      exact ⟨rfl, Or.inr rfl⟩
  · intro h k hk
    rw [← r.mailbox_eq_of_getElem? (Array.getElem?_eq_getElem hk)]
    simpa using h k

/-- A mesh is not idle while a node is neither parked nor halted. -/
lemma isIdle_of_awake (hawake : (r.mailbox k).parked = false)
    (hlive : (r.mailbox k).halted = false) : r.isIdle = false := by
  by_contra h
  have hk := (isIdle_iff.1 (by simpa using h) k).2
  rw [hawake, hlive] at hk
  simp at hk

end Router

end Intcode.Mesh
