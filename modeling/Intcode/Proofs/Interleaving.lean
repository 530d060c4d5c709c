import Intcode.Amplifier.Concurrent
import Intcode.Proofs.Stage
import Mathlib.Order.WellFounded

/-!
# Stages that run concurrently do not depend on timing

A `Line` may go on in many ways, since at any time every stage that does not wait may be the next to
execute an instruction.  This module proves that all ways come to the same end
(`interleavings_agree`): they are finite, and either the stages always come to the same results, or
there is feedback and they always end up waiting for each other.

A line shows a network of processes (`Line.network`).  When a stage goes on, the process that it is
makes a step or, if the machine is suspended, the network stays as it is (`network_advance`).  So
the ends of all ways show the same network.
-/

namespace Intcode.Amplifier

open Relation Machine

variable {k i : Nat}

/-! ## What a line shows -/

/-- The node of a stage with the values that wait for it. -/
def Worker.node (w : Worker) (waiting : List Word) : Node EndlessMachine :=
  match w.result with
  | none => .live w.machine.core waiting
  | some ending => .ended ending

lemma Worker.deliver_node (w : Worker) (waiting values : List Word) :
    (w.node waiting).deliver values = w.node (waiting ++ values) := by
  unfold node
  cases w.result with
  | none => rfl
  | some ending => rfl

lemma Worker.isLive_node (w : Worker) (waiting : List Word) :
    (w.node waiting).isLive = w.result.isNone := by
  unfold node
  cases w.result with
  | none => rfl
  | some ending => rfl

lemma Worker.result_of_node {w : Worker} {waiting : List Word}
    {ending : Except Fault (Option Word)} (h : w.node waiting = .ended ending) :
    w.result = some ending := by
  unfold node at h
  cases hresult : w.result with
  | none =>
    rw [hresult] at h
    cases h
  | some e =>
    rw [hresult] at h
    cases h
    rfl

namespace Line

variable {l l' : Line}

/-- The values on their way to a stage, given those on their way to all of them. -/
def waiting (channels : Array (Queue Word)) (k : Nat) : List Word :=
  (channels.getD k .empty).toList

/-- The network that a line shows. -/
def network (l : Line) : Network EndlessMachine where
  feedback := l.feedback
  count := l.workers.size
  node k :=
    match l.workers[k]? with
    | some worker => worker.node (waiting l.channels k)
    | none => .ended (.ok none)

lemma node_network {w : Worker} (h : l.workers[k]? = some w) :
    l.network.node k = w.node (waiting l.channels k) := by
  change (match l.workers[k]? with | some w => _ | none => _ : Node EndlessMachine) = _
  rw [h]

lemma isLive_network (l : Line) (k : Nat) : (l.network.node k).isLive = l.isAlive k := by
  unfold isAlive
  cases hworker : l.workers[k]? with
  | none =>
    change (match l.workers[k]? with | some w => _ | none => _ : Node EndlessMachine).isLive = _
    rw [hworker]
    rfl
  | some w => rw [node_network hworker, Worker.isLive_node]

lemma fed_network (l : Line) (k : Nat) : l.network.fed k = l.isFed k := by
  have hsender : sender? l.network.feedback l.network.count k =
      sender? l.feedback l.workers.size k := rfl
  unfold Network.fed isFed
  rw [hsender]
  cases sender? l.feedback l.workers.size k with
  | none => rfl
  | some j => exact isLive_network l j

/-- What holds of every line on the way: there is a channel for every stage, and a stage that has
not come to its end has not halted and is suspended only if it asks for a value. -/
structure Sound (l : Line) : Prop where
  size_channels : l.channels.size = l.workers.size
  not_halted : ∀ {k : Nat} {w : Worker}, l.workers[k]? = some w → w.result = none →
    w.machine.status ≠ .halted
  asks : ∀ {k : Nat} {w : Worker}, l.workers[k]? = some w → w.result = none →
    w.machine.status = .needsInput → ∃ resume, w.machine.core.reaction = .ask resume

/-! ## Channels -/

lemma waiting_modify_push {channels : Array (Queue Word)} (value : Word) (h : i < channels.size)
    (j : Nat) :
    waiting (channels.modify j fun channel => channel.push value) i =
      waiting channels i ++ if j = i then [value] else [] := by
  unfold waiting
  rw [Array.getD_eq_getD_getElem?, Array.getD_eq_getD_getElem?, Array.getElem?_modify]
  by_cases hji : j = i
  · rw [if_pos hji, if_pos hji, Array.getElem?_eq_getElem h]
    exact Queue.toList_push _ _
  · rw [if_neg hji, if_neg hji, List.append_nil]

lemma waiting_set {channels : Array (Queue Word)} (h : k < channels.size) (queue : Queue Word)
    (i : Nat) :
    waiting (channels.setIfInBounds k queue) i =
      if i = k then queue.toList else waiting channels i := by
  unfold waiting
  rw [Array.getD_eq_getD_getElem?, Array.getD_eq_getD_getElem?, Array.getElem?_setIfInBounds]
  by_cases hki : k = i
  · rw [if_pos hki, if_pos hki.symm, if_pos h]
    rfl
  · rw [if_neg hki, if_neg (Ne.symm hki)]

/-- A stage to which a value is on its way takes it from its channel. -/
lemma exists_pop?_of_waiting {channels : Array (Queue Word)} {value : Word} {rest : List Word}
    (h : waiting channels k = value :: rest) :
    ∃ queue, (channels.getD k .empty).pop? = some (value, queue) ∧ queue.toList = rest := by
  cases hpop : (channels.getD k .empty).pop? with
  | none =>
    have hempty : waiting channels k = [] :=
      Queue.isEmpty_iff.1 (Queue.pop?_eq_none_iff.1 hpop)
    rw [hempty] at h
    cases h
  | some popped =>
    have hfirst : waiting channels k = popped.1 :: popped.2.toList :=
      Queue.toList_of_pop?_eq_some hpop
    rw [h] at hfirst
    obtain ⟨rfl, rfl⟩ := List.cons_eq_cons.1 hfirst
    exact ⟨popped.2, rfl, rfl⟩

/-! ## One step -/

/-- The turn of a stage that goes on. -/
def turn (l : Line) (k : Nat) (w : Worker) : Turn Status (Array (Queue Word)) :=
  w.machine.execute (port k (l.isFed k) (l.listener? k)) l.channels

lemma work_run (port : Port (Array (Queue Word))) (w : Worker) (channels : Array (Queue Word)) :
    (work port w).run channels =
      (⟨(w.machine.execute port channels).machine, (w.machine.execute port channels).ending?⟩,
        (w.machine.execute port channels).port) := by
  unfold work
  simp only [StateT.run]
  rcases w.machine.execute port channels with ⟨fault | status, machine, channels'⟩
  · rfl
  · cases status with
    | running => rfl
    | needsInput => rfl
    | hasOutput value => rfl
    | halted => rfl

/-- A step replaces a stage by what its turn makes of it. -/
lemma advance_eq {w : Worker} (h : l.workers[k]? = some w) :
    ∃ hk : k < l.workers.size, l.advance k =
      { l with
        workers := l.workers.set k ⟨(l.turn k w).machine, (l.turn k w).ending?⟩ hk
        channels := (l.turn k w).port } := by
  obtain ⟨hk, rfl⟩ := Array.getElem?_eq_some_iff.1 h
  refine ⟨hk, ?_⟩
  unfold advance turn
  simp only [Array.modifyM, hk, dif_pos, StateT.run_bind, StateT.run_pure, work_run]
  rfl

/-- A line shows a step of its network after a turn that changes the stage as the step does and
delivers what the step delivers. -/
lemma network_advance_of_turn {w : Worker} {n : Node EndlessMachine} {emitted : List Word}
    (hw : l.workers[k]? = some w)
    (hself : (l.turn k w).node (waiting (l.turn k w).port k) =
      n.deliver (l.network.parcel k k emitted))
    (hothers : ∀ i ≠ k, ∀ v, l.workers[i]? = some v → v.result = none →
      waiting (l.turn k w).port i = waiting l.channels i ++ l.network.parcel k i emitted) :
    (l.advance k).network = l.network.apply k (n, emitted) := by
  obtain ⟨hk, hadvance⟩ := advance_eq hw
  rw [hadvance]
  unfold network Network.apply
  congr 1
  · exact Array.size_set hk
  · funext i
    by_cases hik : i = k
    · subst hik
      rw [if_pos rfl]
      refine Eq.trans ?_ hself
      simp only [Array.getElem?_set_self]
      rfl
    · rw [if_neg hik]
      simp only [Array.getElem?_set_ne hk (Ne.symm hik)]
      cases hv : l.workers[i]? with
      | none => rfl
      | some v =>
        change v.node (waiting (l.turn k w).port i) =
          (v.node (waiting l.channels i)).deliver (l.network.parcel k i emitted)
        rw [Worker.deliver_node]
        unfold Worker.node
        cases hresult : v.result with
        | some ending => rfl
        | none => exact congrArg (Node.live _) (hothers i hik v hv hresult)

/-- A value that a stage sends reaches the stage that the network delivers it to. -/
lemma exists_send_port (hsound : l.Sound) (k : Nat) (fed : Bool) (value : Word) :
    ∃ channels, (port k fed (l.listener? k)).send value l.channels = (.ok (), channels) ∧
      channels.size = l.channels.size ∧
      ∀ i w, l.workers[i]? = some w → w.result = none →
        waiting channels i = waiting l.channels i ++ l.network.parcel k i [value] := by
  have halive : ∀ {i : Nat} {w : Worker}, l.workers[i]? = some w → w.result = none →
      l.isAlive i = true := by
    intro i w hw hresult
    unfold isAlive
    rw [hw]
    exact Option.isNone_iff_eq_none.2 hresult
  cases hlistener : l.listener? k with
  | none =>
    refine ⟨l.channels, rfl, rfl, fun i w hw hresult => ?_⟩
    have hreceiver : receiver? l.feedback l.workers.size k ≠ some i := by
      intro hreceiver
      unfold listener? at hlistener
      rw [hreceiver, Option.filter_some_pos (halive hw hresult)] at hlistener
      cases hlistener
    have hparcel : l.network.parcel k i [value] = [] := if_neg hreceiver
    rw [hparcel, List.append_nil]
  | some j =>
    refine ⟨l.channels.modify j fun channel => channel.push value, rfl, Array.size_modify,
      fun i w hw hresult => ?_⟩
    have hi : i < l.channels.size := by
      rw [hsound.size_channels]
      exact (Array.getElem?_eq_some_iff.1 hw).1
    unfold listener? at hlistener
    obtain ⟨hreceiver, _⟩ := Option.filter_eq_some_iff.1 hlistener
    have hparcel : l.network.parcel k i [value] = if j = i then [value] else [] := by
      change (if receiver? l.feedback l.workers.size k = some i then _ else _) = _
      rw [hreceiver]
      simp only [Option.some_inj]
    rw [hparcel, waiting_modify_push value hi]

/-- At the channel of a stage the values on their way to it wait. -/
lemma shows_port (l : Line) (k : Nat) :
    (port k (l.isFed k) (l.listener? k)).Shows l.channels (waiting l.channels k) (l.isFed k) := by
  refine ⟨fun value => ?_, fun value rest hwaiting => ?_, fun hwaiting => ?_⟩
  · cases l.listener? k with
    | none => exact ⟨_, rfl⟩
    | some j => exact ⟨_, rfl⟩
  · obtain ⟨queue, hpop, _⟩ := exists_pop?_of_waiting hwaiting
    refine ⟨l.channels.setIfInBounds k queue, ?_⟩
    unfold port
    simp only [hpop]
  · have hpop : (l.channels.getD k .empty).pop? = none :=
      Queue.pop?_eq_none_iff.2 (Queue.isEmpty_iff.2 hwaiting)
    unfold port
    simp only [hpop]

/-- What a turn of a stage leaves behind in the channels. -/
lemma waiting_of_leaves {channels : Array (Queue Word)} {w : Worker} {rest emitted : List Word}
    (hsound : l.Sound) (hw : l.workers[k]? = some w) (hresult : w.result = none)
    (h : (port k (l.isFed k) (l.listener? k)).Leaves l.channels (waiting l.channels k) rest emitted
      channels) :
    channels.size = l.channels.size ∧
      waiting channels k = rest ++ l.network.parcel k k emitted ∧
      ∀ i ≠ k, ∀ v, l.workers[i]? = some v → v.result = none →
        waiting channels i = waiting l.channels i ++ l.network.parcel k i emitted := by
  cases h with
  | same =>
    refine ⟨rfl, ?_, fun i _ _ _ _ => ?_⟩
    · rw [Network.parcel_nil, List.append_nil]
    · rw [Network.parcel_nil, List.append_nil]
  | @sent value _ hsend =>
    obtain ⟨channels', hsend', hsize, hdelivered⟩ := exists_send_port hsound k (l.isFed k) value
    rw [hsend] at hsend'
    cases hsend'
    exact ⟨hsize, hdelivered k w hw hresult, fun i _ v hv hlive => hdelivered i v hv hlive⟩
  | @taken value _ _ hwaiting hreceive =>
    have hchannel : k < l.channels.size :=
      hsound.size_channels ▸ (Array.getElem?_eq_some_iff.1 hw).1
    obtain ⟨queue, hpop, rfl⟩ := exists_pop?_of_waiting hwaiting
    unfold port at hreceive
    simp only [hpop] at hreceive
    cases hreceive
    refine ⟨Array.size_setIfInBounds, ?_, fun i hik _ _ _ => ?_⟩
    · rw [waiting_set hchannel, if_pos rfl, Network.parcel_nil, List.append_nil]
    · rw [waiting_set hchannel, if_neg hik, Network.parcel_nil, List.append_nil]

/-- The turn of a stage leaves behind what a move of its node leaves behind. -/
structure Moves (l : Line) (k : Nat) (turn : Turn Status (Array (Queue Word)))
    (n : Node EndlessMachine) (emitted : List Word) : Prop where
  answer_ne : turn.answer ≠ .ok .needsInput
  self : turn.node (waiting turn.port k) = n.deliver (l.network.parcel k k emitted)
  others : ∀ i ≠ k, ∀ v, l.workers[i]? = some v → v.result = none →
    waiting turn.port i = waiting l.channels i ++ l.network.parcel k i emitted

/-- What a stage that goes on can do: it is suspended and leaves everything as it is, or its turn
leaves behind what a move of its node leaves behind. -/
lemma turn_cases {w : Worker} (hsound : l.Sound) (hw : l.workers[k]? = some w)
    (hresult : w.result = none) :
    (l.turn k w).port.size = l.channels.size ∧
      (((l.turn k w).answer = .ok .needsInput ∧ (l.turn k w).machine.core = w.machine.core ∧
          (l.turn k w).port = l.channels ∧ ∃ resume, w.machine.core.reaction = .ask resume) ∨
        ∃ n emitted, Node.react? (l.isFed k) (waiting l.channels k) w.machine.core.reaction =
          some (n, emitted) ∧ l.Moves k (l.turn k w) n emitted) := by
  have hcarries : (l.turn k w).Carries (port k (l.isFed k) (l.listener? k)) w.machine l.channels
      w.machine.core.reaction := carries_execute (hsound.not_halted hw hresult) _ _
  rcases hcarries.cases (l.shows_port k) with
    ⟨hanswer, hcore, hport, _, hask⟩ | ⟨hanswer, rest, emitted, hreact, hleaves⟩
  · exact ⟨congrArg Array.size hport, Or.inl ⟨hanswer, hcore, hport, hask⟩⟩
  · obtain ⟨hsize, hself, hothers⟩ := waiting_of_leaves hsound hw hresult hleaves
    refine ⟨hsize, Or.inr ⟨(l.turn k w).node rest, emitted, hreact, hanswer, ?_, hothers⟩⟩
    rw [hself, Turn.deliver_node]

/-- When a stage goes on, the process that it is makes a step, or it is suspended and the network
stays as it is. -/
theorem network_advance {w : Worker} (hsound : l.Sound) (hw : l.workers[k]? = some w)
    (hresult : w.result = none) :
    l.network.next? k = some (l.advance k).network ∨ (l.advance k).network = l.network := by
  have hnode : l.network.node k = .live w.machine.core (waiting l.channels k) := by
    rw [node_network hw]
    unfold Worker.node
    rw [hresult]
  obtain ⟨_, ⟨hanswer, hcore, hport, _⟩ | ⟨n, emitted, hreact, hmoves⟩⟩ :=
    turn_cases hsound hw hresult
  · right
    refine Eq.trans ?_ (l.network.apply_node k)
    refine network_advance_of_turn hw ?_ fun i _ _ _ _ => ?_
    · rw [Turn.node_of_ok hanswer (by simp), hport, hnode, Network.parcel_nil,
        Node.deliver_nil, ← hcore]
    · rw [hport, Network.parcel_nil, List.append_nil]
  · left
    rw [network_advance_of_turn hw hmoves.self hmoves.others]
    refine Network.next?_of_move? (Array.getElem?_eq_some_iff.1 hw).1 ?_
    rw [hnode, fed_network]
    exact hreact

/-- A line stays sound when a stage goes on. -/
lemma Sound.advance {w : Worker} (hsound : l.Sound) (hw : l.workers[k]? = some w)
    (hresult : w.result = none) : (l.advance k).Sound := by
  obtain ⟨hk, hadvance⟩ := advance_eq hw
  obtain ⟨hsize, hturn⟩ := turn_cases hsound hw hresult
  have hself (hlive : (l.turn k w).ending? = none) : ∃ status,
      (l.turn k w).answer = .ok status ∧ status ≠ .halted ∧
        (l.turn k w).machine.status = status := by
    obtain ⟨status, hanswer, hstatus⟩ := Turn.exists_status_of_ending?_eq_none hlive
    exact ⟨status, hanswer, hstatus, status_execute hanswer⟩
  rw [hadvance]
  refine ⟨?_, ?_, ?_⟩
  · simp only [hsize, Array.size_set]
    exact hsound.size_channels
  · intro i v hv hlive
    by_cases hik : i = k
    · subst hik
      rw [Array.getElem?_set_self] at hv
      cases hv
      obtain ⟨status, _, hstatus, hequal⟩ := hself hlive
      exact hequal ▸ hstatus
    · rw [Array.getElem?_set_ne hk (Ne.symm hik)] at hv
      exact hsound.not_halted hv hlive
  · intro i v hv hlive hneeds
    by_cases hik : i = k
    · subst hik
      rw [Array.getElem?_set_self] at hv
      cases hv
      obtain ⟨status, hanswer, _, hequal⟩ := hself hlive
      have hstatus : status = .needsInput := hequal.symm.trans hneeds
      rw [hstatus] at hanswer
      rcases hturn with ⟨_, hcore, _, hasks⟩ | ⟨n, emitted, _, hmoves⟩
      · exact hcore ▸ hasks
      · exact absurd hanswer hmoves.answer_ne
    · rw [Array.getElem?_set_ne hk (Ne.symm hik)] at hv
      exact hsound.asks hv hlive hneeds

/-! ## Ways to the end -/

/-- Some stage that can go on executes an instruction. -/
def Step (l l' : Line) : Prop := ∃ k, l.canAdvance k = true ∧ l.advance k = l'

lemma exists_worker_of_canAdvance (h : l.canAdvance k = true) :
    ∃ w, l.workers[k]? = some w ∧ w.result = none := by
  unfold canAdvance at h
  cases hw : l.workers[k]? with
  | none =>
    rw [hw] at h
    cases h
  | some w =>
    rw [hw] at h
    exact ⟨w, rfl, Option.isNone_iff_eq_none.1 (Bool.and_eq_true_iff.1 h).1⟩

/-- No stage can go on. -/
def IsFinal (l : Line) : Prop := ∀ k, l.canAdvance k = false

/-- Every stage waits for a value that it is still to be sent. -/
def AllBlocked (l : Line) : Prop :=
  ∀ k w, l.workers[k]? = some w →
    w.result = none ∧ isWaiting w.machine (l.channel k) (l.isFed k) = true

/-- What a line on the way shows has been reached in the network that the line shows at first. -/
lemma reaches_network (h : ReflTransGen Step l l') (hsound : l.Sound) :
    l'.Sound ∧ l.network.Reaches l'.network := by
  induction h with
  | refl => exact ⟨hsound, ReflTransGen.refl⟩
  | tail _ hstep ih =>
    obtain ⟨hsound', hreaches⟩ := ih
    obtain ⟨k, hcan, rfl⟩ := hstep
    obtain ⟨w, hw, hresult⟩ := exists_worker_of_canAdvance hcan
    refine ⟨hsound'.advance hw hresult, ?_⟩
    rcases network_advance hsound' hw hresult with hmoves | hstays
    · exact hreaches.tail ⟨k, hmoves⟩
    · rw [hstays]
      exact hreaches

/-- A stage that cannot go on although it has not come to its end waits. -/
lemma IsFinal.isWaiting {w : Worker} (hfinal : l.IsFinal) (hw : l.workers[k]? = some w)
    (hresult : w.result = none) : isWaiting w.machine (l.channel k) (l.isFed k) = true := by
  have hcannot := hfinal k
  unfold canAdvance at hcannot
  rw [hw] at hcannot
  simp only [hresult, Option.isNone_none, Bool.true_and, Bool.not_eq_false'] at hcannot
  exact hcannot

/-- When no stage can go on, no process can. -/
lemma IsFinal.network (hfinal : l.IsFinal) (hsound : l.Sound) : l.network.IsFinal := by
  intro k
  unfold Network.next?
  split
  · next hk =>
    have hw : l.workers[k]? = some l.workers[k] := Array.getElem?_eq_getElem hk
    rw [node_network hw, fed_network]
    unfold Worker.node
    cases hresult : l.workers[k].result with
    | some ending => rfl
    | none =>
      have hwaiting := hfinal.isWaiting hw hresult
      unfold Line.isWaiting at hwaiting
      simp only [Bool.and_eq_true, decide_eq_true_eq] at hwaiting
      obtain ⟨⟨hneeds, hempty⟩, hfed⟩ := hwaiting
      obtain ⟨resume, hask⟩ := hsound.asks hw hresult hneeds
      have hnone : waiting l.channels k = [] := Queue.isEmpty_iff.1 hempty
      change (Node.react? (l.isFed k) (waiting l.channels k) l.workers[k].machine.core.reaction).map
        _ = none
      rw [hask, hnone, hfed]
      rfl
  · rfl

lemma canAdvance_eq_false_of_lastReady? {n : Nat} (h : l.lastReady? n = none) (hk : k < n) :
    l.canAdvance k = false := by
  induction n with
  | zero => exact absurd hk (Nat.not_lt_zero k)
  | succ n ih =>
    unfold lastReady? at h
    split at h
    · cases h
    · next hn =>
      rcases Nat.lt_or_eq_of_le (Nat.le_of_lt_succ hk) with hlt | rfl
      · exact ih h hlt
      · exact Bool.eq_false_iff.2 hn

/-- Letting stages go on until none can is one way to the end. -/
lemma settle_isFinal (l : Line) : ReflTransGen Step l l.settle ∧ l.settle.IsFinal := by
  fun_induction settle l with
  | case1 l k hready ih =>
    exact ⟨ih.1.head ⟨k, canAdvance_of_lastReady? hready, rfl⟩, ih.2⟩
  | case2 l hready =>
    refine ⟨ReflTransGen.refl, fun k => ?_⟩
    by_cases hk : k < l.workers.size
    · exact canAdvance_eq_false_of_lastReady? hready hk
    · unfold canAdvance
      rw [Array.getElem?_eq_none (Nat.le_of_not_lt hk)]

/-- A line cannot go on for ever. -/
lemma step_wellFounded : WellFounded fun l' l : Line => l.Step l' := by
  refine Subrelation.wf (r := InvImage (· < ·) weight) ?_ (InvImage.wf weight Nat.lt_wfRel.wf)
  rintro l' l ⟨k, hcan, rfl⟩
  exact weight_advance_lt hcan

/-! ## Results -/

lemma mapM_eq_some {α β : Type} {f : α → Option β} {xs : List α} {ys : List β}
    (h : xs.map f = ys.map some) : xs.mapM f = some ys := by
  induction xs generalizing ys with
  | nil =>
    cases ys with
    | nil => rfl
    | cons y ys => cases h
  | cons x xs ih =>
    cases ys with
    | nil => cases h
    | cons y ys =>
      obtain ⟨hx, hxs⟩ := List.cons_eq_cons.1 h
      rw [List.mapM_cons, hx, ih hxs]
      rfl

lemma mapM_eq_none {α β : Type} {f : α → Option β} {xs : List α} {x : α} (hx : x ∈ xs)
    (h : f x = none) : xs.mapM f = none := by
  induction xs with
  | nil => cases hx
  | cons y ys ih =>
    rw [List.mapM_cons]
    rcases List.mem_cons.1 hx with rfl | hmem
    · rw [h]
      rfl
    · rw [ih hmem]
      cases f y with
      | none => rfl
      | some b => rfl

/-- The results of stages that have all come to their ends are told by the network. -/
lemma results?_eq_some (h : ∀ k < l.network.count, ∃ ending, l.network.node k = .ended ending) :
    l.results? = some l.network.endings := by
  refine mapM_eq_some (List.ext_getElem (by simp [Network.endings, network]) fun i hi _ => ?_)
  have hi' : i < l.workers.size := by simpa using hi
  obtain ⟨ending, hended⟩ := h i hi'
  have hnode := node_network (Array.getElem?_eq_getElem hi')
  rw [hended] at hnode
  have hresult := Worker.result_of_node hnode.symm
  simp [Network.endings, hresult, hended, Node.ending]

/-- There are no results while a stage waits. -/
lemma results?_eq_none (hk : k < l.network.count) (h : (l.network.node k).isLive = true) :
    l.results? = none := by
  rw [node_network (Array.getElem?_eq_getElem hk), Worker.isLive_node] at h
  exact mapM_eq_none (Array.getElem_mem_toList hk) (Option.isNone_iff_eq_none.1 h)

/-- The results of the stages can be told from the network. -/
lemma results?_congr (h : l.network = l'.network) : l.results? = l'.results? := by
  by_cases hended : ∀ k < l.network.count, ∃ ending, l.network.node k = .ended ending
  · rw [results?_eq_some hended, results?_eq_some (h ▸ hended), h]
  · simp only [not_forall, exists_prop] at hended
    obtain ⟨k, hk, hlive⟩ := hended
    have hlive' : (l.network.node k).isLive = true := by
      cases hnode : l.network.node k with
      | live process waiting => rfl
      | ended ending => exact absurd ⟨ending, hnode⟩ hlive
    rw [results?_eq_none hk hlive', results?_eq_none (h ▸ hk) (h ▸ hlive')]

end Line

/-! ## All ways come to the same end -/

/-- The line is where the stages of an amplifier have come to if none of them can go on. -/
def EndsIn (a : Amplifier) (l : Line) : Prop := ReflTransGen Line.Step a.line l ∧ l.IsFinal

/-- What an amplifier whose stages run concurrently gives when they have come to a line in which
none can go on; nothing if they wait for each other for ever. -/
def outcome (a : Amplifier) (l : Line) : Option (Except Error Word) :=
  if a.phases.isEmpty then some (.error (.settings .noPhases)) else l.results?.map collect

lemma length_firstInputs (a : Amplifier) : a.firstInputs.length = a.phases.length := by
  unfold firstInputs
  cases a.phases with
  | nil => rfl
  | cons phase rest => simp

/-- The stages of an amplifier are sound before the first step. -/
lemma sound_line (a : Amplifier) : a.line.Sound := by
  have hboot {k : Nat} {w : Worker} (hw : a.line.workers[k]? = some w) :
      w = ⟨a.stageMachine, none⟩ := by
    unfold line at hw
    simp only [List.getElem?_toArray, List.getElem?_map, Option.map_eq_some_iff] at hw
    obtain ⟨_, _, rfl⟩ := hw
    rfl
  refine ⟨?_, ?_, ?_⟩
  · simp [line, length_firstInputs]
  · intro k w hw _ hhalted
    rw [hboot hw] at hhalted
    cases hhalted
  · intro k w hw _ hneeds
    rw [hboot hw] at hneeds
    cases hneeds

lemma endsIn_settle (a : Amplifier) : a.EndsIn a.line.settle := a.line.settle_isFinal

/-- The line that an amplifier comes to shows the only network without a step that the amplifier
leads to. -/
lemma EndsIn.network {a : Amplifier} {l : Line} (h : a.EndsIn l) :
    l.Sound ∧ a.line.network.Reaches l.network ∧ l.network.IsFinal := by
  obtain ⟨hsteps, hfinal⟩ := h
  obtain ⟨hsound, hreaches⟩ := Line.reaches_network hsteps a.sound_line
  exact ⟨hsound, hreaches, hfinal.network hsound⟩

/-- All lines that an amplifier comes to show the same network. -/
lemma EndsIn.network_eq {a : Amplifier} {l l' : Line} (h : a.EndsIn l) (h' : a.EndsIn l') :
    l.network = l'.network :=
  Network.isFinal_unique h.network.2.1 h.network.2.2 h'.network.2.1 h'.network.2.2

/-- If all processes wait, so do all stages. -/
lemma EndsIn.allBlocked {a : Amplifier} {l : Line} (h : a.EndsIn l)
    (hidle : ∀ k < l.network.count, (l.network.node k).IsIdle) : l.AllBlocked := by
  intro k w hw
  have hlive := (hidle k (Array.getElem?_eq_some_iff.1 hw).1).isLive
  rw [Line.node_network hw, Worker.isLive_node] at hlive
  have hresult := Option.isNone_iff_eq_none.1 hlive
  exact ⟨hresult, h.2.isWaiting hw hresult⟩

/-- An amplifier whose stages run concurrently does not depend on timing: its stages cannot go on
for ever, and however they go on, they come to the same results, or there is feedback and each of
them ends up waiting for another. -/
theorem interleavings_agree (a : Amplifier) :
    WellFounded (fun l' l : Line => l.Step l') ∧ (∃ l, a.EndsIn l) ∧
      ((∃ results, ∀ l, a.EndsIn l → l.results? = some results) ∨
        a.settings.feedback = true ∧ ∀ l, a.EndsIn l → l.AllBlocked) ∧
      ∀ l, a.EndsIn l → a.outcome l = a.runConcurrent := by
  refine ⟨Line.step_wellFounded, ⟨_, a.endsIn_settle⟩, ?_, fun l hl => ?_⟩
  · obtain ⟨_, hreaches, hfinal⟩ := a.endsIn_settle.network
    rcases hfinal.ended_or_idle with hended | ⟨hfeedback, hidle⟩
    · left
      refine ⟨a.line.settle.network.endings, fun l hl => ?_⟩
      rw [Line.results?_congr (hl.network_eq a.endsIn_settle), Line.results?_eq_some hended]
    · right
      rw [(Network.shape_of_reaches hreaches).1] at hfeedback
      exact ⟨hfeedback, fun l hl => hl.allBlocked (hl.network_eq a.endsIn_settle ▸ hidle)⟩
  · unfold outcome runConcurrent
    rw [Line.results?_congr (hl.network_eq a.endsIn_settle)]

end Intcode.Amplifier
