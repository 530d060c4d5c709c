import Intcode.Amplifier.Scheduled
import Intcode.Proofs.Stage

/-!
# Stages that take turns

The stages of an amplifier that take turns show a network of processes too (`Scheduled.network`).
In its turn a stage makes as many steps in a row as it can with the values that wait for it, and
what it emits is delivered at the end of its turn; for the network this is the same as delivering
each value at once (`reaches_runWith`).

From this it follows what the rounds come to (`rounds_explained`).  The network leads to one in
which all processes have ended without a fault, or in which one of them has ended with a fault, or
in which each of them has ended or waits for a value.
-/

namespace Intcode.Amplifier

open Relation Machine

variable {m : Machine} {b : Buffer} {k i : Nat}

/-! ## Turns -/

/-- At a buffer its inputs wait, and more may come. -/
lemma shows_buffered (b : Buffer) : Port.buffered.Shows b b.inputs true := by
  rcases b with ⟨inputs, outputs⟩
  refine ⟨fun value => ⟨_, rfl⟩, fun value rest hinputs => ?_, fun hinputs => ?_⟩
  · change inputs = value :: rest at hinputs
    rw [hinputs]
    exact ⟨_, rfl⟩
  · change inputs = [] at hinputs
    rw [hinputs]
    rfl

/-- What a turn leaves behind at a buffer: what has been emitted is added to the outputs. -/
lemma eq_of_leaves_buffered {b' : Buffer} {rest emitted : List Word}
    (h : Port.buffered.Leaves b b.inputs rest emitted b') :
    b'.inputs = rest ∧ b'.outputs.toList = b.outputs.toList ++ emitted := by
  rcases b with ⟨inputs, outputs⟩
  cases h with
  | same => exact ⟨rfl, (List.append_nil _).symm⟩
  | sent hsend =>
    cases hsend
    exact ⟨rfl, Array.toList_push⟩
  | taken hinputs hreceive =>
    change inputs = _ :: _ at hinputs
    rw [hinputs] at hreceive
    cases hreceive
    exact ⟨rfl, (List.append_nil _).symm⟩

/-- A machine in front of a buffer is suspended because the buffer is empty, or it does what its
process does while values may still come, and what it emits is added to the buffer. -/
lemma execute_buffered_cases (hm : m.status ≠ .halted) (b : Buffer) :
    ((m.execute Port.buffered b).answer = .ok .needsInput ∧
        (m.execute Port.buffered b).machine.core = m.core ∧
        (m.execute Port.buffered b).port = b ∧ (Node.live m.core b.inputs).IsIdle) ∨
      (m.execute Port.buffered b).answer ≠ .ok .needsInput ∧
        (∀ fault, (m.execute Port.buffered b).answer = .error fault → fault ≠ .channelClosed) ∧
        ∃ emitted, (Node.live m.core b.inputs).move? true =
            some ((m.execute Port.buffered b).node (m.execute Port.buffered b).port.inputs,
              emitted) ∧
          (m.execute Port.buffered b).port.outputs.toList = b.outputs.toList ++ emitted := by
  rcases (carries_execute hm Port.buffered b).cases (shows_buffered b) with
    ⟨hanswer, hcore, hport, hempty, resume, hask⟩ | ⟨hanswer, rest, emitted, hreact, hleaves⟩
  · exact Or.inl ⟨hanswer, hcore, hport, m.core, resume, congrArg (Node.live _) hempty, hask⟩
  · right
    obtain ⟨hinputs, houtputs⟩ := eq_of_leaves_buffered hleaves
    rw [← hinputs] at hreact
    refine ⟨hanswer, fun fault hfault => ?_, emitted, hreact, houtputs⟩
    rw [Turn.node_of_error hfault] at hreact
    exact m.core.ne_channelClosed_of_move? hreact

/-- The node that a machine is after a run. -/
def restNode (turn : Turn Stop Buffer) : Node EndlessMachine :=
  match turn.answer with
  | .error fault => .ended (.error fault)
  | .ok .halted => .ended (.ok turn.machine.lastOutput)
  | .ok .awaitingInput => .live turn.machine.core turn.port.inputs

/-- An instruction that is not suspended is a step of the network in which what is emitted is
delivered at once. -/
lemma step_execute_buffered (c : Network EndlessMachine) (hk : k < c.count)
    (hm : m.status ≠ .halted) (h : (m.execute Port.buffered b).answer ≠ .ok .needsInput) :
    (c.apply k (.live m.core b.inputs, b.outputs.toList)).Step
      (c.apply k ((m.execute Port.buffered b).node (m.execute Port.buffered b).port.inputs,
        (m.execute Port.buffered b).port.outputs.toList)) := by
  rcases execute_buffered_cases hm b with ⟨hanswer, _⟩ | ⟨_, _, emitted, hmove, houtputs⟩
  · exact absurd hanswer h
  · refine ⟨k, ?_⟩
    rw [houtputs]
    exact Network.next?_apply_of_move? hk hmove

/-- A run against a buffer is a number of steps of the network in which what is emitted is delivered
at once. -/
lemma reaches_runWith (c : Network EndlessMachine) (hk : k < c.count) (hm : m.status ≠ .halted)
    (b : Buffer) :
    (c.apply k (.live m.core b.inputs, b.outputs.toList)).Reaches
      (c.apply k (restNode (m.runWith Port.buffered b),
        (m.runWith Port.buffered b).port.outputs.toList)) := by
  fun_induction m.runWith Port.buffered b with
  | case1 m b fault m' b' h =>
    have hstep := step_execute_buffered (b := b) c hk hm
    rw [h] at hstep
    exact ReflTransGen.single (hstep (by simp))
  | case2 m b m' b' h =>
    have hstep := step_execute_buffered (b := b) c hk hm
    rw [h] at hstep
    exact ReflTransGen.single (hstep (by simp))
  | case3 m b m' b' h =>
    rcases execute_buffered_cases hm b with ⟨_, hcore, hport, _⟩ | ⟨hanswer, _⟩
    · rw [h] at hcore hport
      change m'.core = m.core at hcore
      change b' = b at hport
      unfold restNode
      rw [hcore, hport]
      exact ReflTransGen.refl
    · rw [h] at hanswer
      exact absurd rfl hanswer
  | case4 m b m' b' h ih =>
    have hstep := step_execute_buffered (b := b) c hk hm
    have hstatus := status_of_execute_eq h
    rw [h] at hstep
    exact (ih (by simp [hstatus])).head (hstep (by simp))
  | case5 m b value m' b' h ih =>
    have hstep := step_execute_buffered (b := b) c hk hm
    have hstatus := status_of_execute_eq h
    rw [h] at hstep
    exact (ih (by simp [hstatus])).head (hstep (by simp))

/-- A run does not fault over a closed channel, and when it is suspended, the machine waits. -/
lemma runWith_buffered_cases (hm : m.status ≠ .halted) (b : Buffer) :
    (∀ fault, (m.runWith Port.buffered b).answer = .error fault → fault ≠ .channelClosed) ∧
      ((m.runWith Port.buffered b).answer = .ok .awaitingInput →
        (m.runWith Port.buffered b).machine.status ≠ .halted ∧
          (restNode (m.runWith Port.buffered b)).IsIdle) := by
  fun_induction m.runWith Port.buffered b with
  | case1 m b fault m' b' h =>
    rcases execute_buffered_cases hm b with ⟨hanswer, _⟩ | ⟨_, hfault, _⟩
    · rw [h] at hanswer
      cases hanswer
    · rw [h] at hfault
      constructor
      · rintro _ ⟨⟩
        exact hfault fault rfl
      · intro hanswer
        cases hanswer
  | case2 m b m' b' h =>
    constructor
    · intro fault hanswer
      cases hanswer
    · intro hanswer
      cases hanswer
  | case3 m b m' b' h =>
    have hstatus := status_of_execute_eq h
    rcases execute_buffered_cases hm b with ⟨_, hcore, hport, hidle⟩ | ⟨hanswer, _⟩
    · rw [h] at hcore hport
      change m'.core = m.core at hcore
      change b' = b at hport
      constructor
      · intro fault hanswer
        cases hanswer
      · intro _
        have hnode : restNode ⟨.ok .awaitingInput, m', b'⟩ = .live m.core b.inputs := by
          unfold restNode
          rw [hcore, hport]
        exact ⟨by simp [hstatus], hnode ▸ hidle⟩
    · rw [h] at hanswer
      exact absurd rfl hanswer
  | case4 m b m' b' h ih =>
    have hstatus := status_of_execute_eq h
    exact ih (by simp [hstatus])
  | case5 m b value m' b' h ih =>
    have hstatus := status_of_execute_eq h
    exact ih (by simp [hstatus])

/-- A run that counts no instruction is suspended at once and leaves everything as it is. -/
lemma runWith_buffered_of_steps_eq {stop : Stop} (hm : m.status ≠ .halted)
    (hanswer : (m.runWith Port.buffered b).answer = .ok stop)
    (hsteps : (m.runWith Port.buffered b).machine.steps = m.steps) :
    stop = .awaitingInput ∧ (m.runWith Port.buffered b).machine.core = m.core ∧
      (m.runWith Port.buffered b).port = b := by
  have hremaining : (m.runWith Port.buffered b).machine.remaining = m.remaining := by
    unfold remaining
    rw [hsteps, stepLimit_runWith]
  have hlater {m' : Machine} {b' : Buffer} (hlt : m'.remaining < m.remaining)
      (hrun : m.runWith Port.buffered b = m'.runWith Port.buffered b') : False := by
    rw [hrun] at hremaining
    rcases spent_runWith Port.buffered m' b' with ⟨_, hequal⟩ | hless
    · omega
    · omega
  have hrun := runWith_eq Port.buffered m b
  rcases hexecute : m.execute Port.buffered b with ⟨fault | status, m', b'⟩
  · rw [hexecute] at hrun
    rw [hrun] at hanswer
    cases hanswer
  · have hless := remaining_execute_lt_of_ne hm (congrArg Turn.answer hexecute)
    have hcases := execute_buffered_cases hm b
    rw [hexecute] at hrun hless hcases
    cases status with
    | needsInput =>
      rw [hrun] at hanswer ⊢
      cases hanswer
      rcases hcases with ⟨_, hcore, hport, _⟩ | ⟨hne, _⟩
      · exact ⟨rfl, hcore, hport⟩
      · exact absurd rfl hne
    | halted =>
      rw [hrun] at hremaining
      exact absurd hremaining (Nat.ne_of_lt (hless (by simp)))
    | running => exact (hlater (hless (by simp)) hrun).elim
    | hasOutput value => exact (hlater (hless (by simp)) hrun).elim

/-! ## What stages show -/

/-- The node of a stage. -/
def Stage.node (s : Stage) : Node EndlessMachine :=
  if s.halted then .ended (.ok s.machine.lastOutput) else .live s.machine.core s.inbox

lemma Stage.node_of_halted {s : Stage} (h : s.halted = true) :
    s.node = .ended (.ok s.machine.lastOutput) := if_pos h

lemma Stage.node_of_not_halted {s : Stage} (h : s.halted = false) :
    s.node = .live s.machine.core s.inbox := by
  unfold node
  rw [h]
  rfl

namespace Scheduled

variable {feedback : Bool} {stages : List Stage} {s : Stage}

/-- The node of the stage that is found at some place. -/
def nodeAt : Option Stage → Node EndlessMachine
  | some s => s.node
  | none => .ended (.ok none)

lemma nodeAt_deliver (values : List Word) (found : Option Stage) :
    nodeAt (found.map (deliver values)) = (nodeAt found).deliver values := by
  cases found with
  | none => rfl
  | some s =>
    change (deliver values s).node = s.node.deliver values
    unfold deliver Stage.node
    cases hhalted : s.halted with
    | true => simp [hhalted, Node.deliver]
    | false => rfl

/-- The network that stages show. -/
def network (feedback : Bool) (stages : List Stage) : Network EndlessMachine where
  feedback := feedback
  count := stages.length
  node k := nodeAt stages[k]?

lemma node_network (h : stages[k]? = some s) : (network feedback stages).node k = s.node :=
  congrArg nodeAt h

/-- What holds of stages in every round: one that is not marked has not halted. -/
def Sound (stages : List Stage) : Prop :=
  ∀ (k : Nat) (s : Stage), stages[k]? = some s → s.halted = false → s.machine.status ≠ .halted

/-- The instructions that stages may still execute. -/
def total (stages : List Stage) : Nat :=
  (stages.map fun s => s.machine.remaining).foldr (· + ·) 0

/-! ## One turn -/

/-- The run of a stage in its turn. -/
def runOf (s : Stage) : Turn Stop Buffer := s.machine.runWith Port.buffered ⟨s.inbox, #[]⟩

/-- The stages after a run of one of them, when what it has emitted has been handed on. -/
def handOver (feedback : Bool) (stages : List Stage) (k : Nat) (run : Turn Stop Buffer)
    (stop : Stop) : List Stage :=
  match receiver? feedback stages.length k with
  | none => stages.set k ⟨run.machine, run.port.inputs, stop = .halted⟩
  | some next => (stages.set k ⟨run.machine, run.port.inputs, stop = .halted⟩).modify next
    (deliver run.port.outputs.toList)

/-- A stage that has not halted makes a run in its turn. -/
lemma turn_eq (progressed : Bool) (hs : stages[k]? = some s) (hlive : s.halted = false) :
    turn feedback (stages, progressed) k = (runOf s).answer.map fun stop =>
      (handOver feedback stages k (runOf s) stop,
        progressed || (runOf s).machine.steps ≠ s.machine.steps) := by
  have hrun : s.machine.runWith Port.buffered ⟨s.inbox, #[]⟩ = runOf s := rfl
  unfold turn
  simp only [hs, hlive, hrun, List.length_set]
  rcases (runOf s).answer with fault | stop
  · rfl
  · unfold handOver
    cases receiver? feedback stages.length k with
    | none => rfl
    | some next => rfl

lemma length_handOver (run : Turn Stop Buffer) (stop : Stop) :
    (handOver feedback stages k run stop).length = stages.length := by
  unfold handOver
  cases receiver? feedback stages.length k with
  | none => exact List.length_set
  | some next => exact (List.length_modify _ _ _).trans List.length_set

/-- Handing over is what the network does with what a process has emitted. -/
lemma network_handOver (feedback : Bool) {run : Turn Stop Buffer} {stop : Stop}
    (hk : k < stages.length) (hanswer : run.answer = .ok stop) :
    network feedback (handOver feedback stages k run stop) =
      (network feedback stages).apply k (restNode run, run.port.outputs.toList) := by
  have hself : Stage.node ⟨run.machine, run.port.inputs, stop = .halted⟩ = restNode run := by
    unfold restNode Stage.node
    rw [hanswer]
    cases stop with
    | halted => rfl
    | awaitingInput => rfl
  have hset (i : Nat) : nodeAt (stages.set k ⟨run.machine, run.port.inputs, stop = .halted⟩)[i]? =
      if i = k then restNode run else (network feedback stages).node i := by
    by_cases hik : i = k
    · rw [hik, List.getElem?_set_self hk, if_pos rfl]
      exact hself
    · rw [List.getElem?_set_ne (Ne.symm hik), if_neg hik]
      rfl
  unfold network Network.apply
  congr 1
  · exact length_handOver run stop
  · funext i
    change _ = (if i = k then _ else (network feedback stages).node i).deliver
      ((network feedback stages).parcel k i _)
    rw [← hset i]
    unfold handOver
    change _ = Node.deliver (if receiver? feedback stages.length k = some i then _ else []) _
    cases receiver? feedback stages.length k with
    | none => exact (Node.deliver_nil _).symm
    | some next =>
      simp only [List.getElem?_modify, Option.some_inj]
      by_cases hnext : next = i
      · simp only [hnext, if_true]
        exact nodeAt_deliver _ _
      · simp [hnext]

/-- What a number that is read off the machines comes to in all. -/
def summed (f : Machine → Nat) (stages : List Stage) : Nat :=
  (stages.map fun s => f s.machine).foldr (· + ·) 0

lemma summed_cons (f : Machine → Nat) (s : Stage) (stages : List Stage) :
    summed f (s :: stages) = f s.machine + summed f stages := rfl

/-- Putting another stage in the place of one changes what is summed up by the difference between
the two. -/
lemma summed_set (f : Machine → Nat) (hs : stages[k]? = some s) (s' : Stage) :
    summed f (stages.set k s') + f s.machine = summed f stages + f s'.machine := by
  induction stages generalizing k with
  | nil => cases hs
  | cons first rest ih =>
    cases k with
    | zero =>
      cases hs
      rw [List.set_cons_zero, summed_cons, summed_cons]
      omega
    | succ k =>
      have hrest := ih hs
      rw [List.set_cons_succ, summed_cons, summed_cons]
      omega

lemma machine_deliver (values : List Word) (s : Stage) :
    (deliver values s).machine = s.machine := by
  unfold deliver
  split
  · rfl
  · rfl

lemma halted_deliver (values : List Word) (s : Stage) : (deliver values s).halted = s.halted := by
  unfold deliver
  split
  · rfl
  · rfl

/-- Delivering values changes no machine. -/
lemma summed_modify_deliver (f : Machine → Nat) (stages : List Stage) (next : Nat)
    (values : List Word) : summed f (stages.modify next (deliver values)) = summed f stages := by
  have hmap : (stages.modify next (deliver values)).map (fun v => f v.machine) =
      stages.map fun v => f v.machine := by
    refine List.ext_getElem? fun i => ?_
    rw [List.getElem?_map, List.getElem?_map, List.getElem?_modify]
    cases stages[i]? with
    | none => rfl
    | some s =>
      change some (f (if next = i then deliver values s else s).machine) = some (f s.machine)
      split
      · rw [machine_deliver]
      · rfl
  unfold summed
  rw [hmap]

/-- A run that is handed over changes what is summed up by what it changes of its own machine. -/
lemma summed_handOver (f : Machine → Nat) (feedback : Bool) (hs : stages[k]? = some s)
    (run : Turn Stop Buffer) (stop : Stop) :
    summed f (handOver feedback stages k run stop) + f s.machine =
      summed f stages + f run.machine := by
  unfold handOver
  cases receiver? feedback stages.length k with
  | none => exact summed_set f hs _
  | some next =>
    rw [summed_modify_deliver]
    exact summed_set f hs _

/-- A run that is handed over uses up the steps that it counts. -/
lemma total_handOver (feedback : Bool) (hs : stages[k]? = some s) (run : Turn Stop Buffer)
    (stop : Stop) :
    total (handOver feedback stages k run stop) + s.machine.remaining =
      total stages + run.machine.remaining :=
  summed_handOver Machine.remaining feedback hs run stop

/-- Stages stay sound when a run is handed over. -/
lemma Sound.handOver {run : Turn Stop Buffer} {stop : Stop} (hsound : Sound stages)
    (hrun : stop = .awaitingInput → run.machine.status ≠ .halted) :
    Sound (handOver feedback stages k run stop) := by
  have hset : Sound (stages.set k ⟨run.machine, run.port.inputs, stop = .halted⟩) := by
    intro i v hv hlive
    rw [List.getElem?_set] at hv
    split at hv
    · split at hv
      · cases hv
        refine hrun ?_
        cases stop with
        | awaitingInput => rfl
        | halted => cases hlive
      · cases hv
    · exact hsound i v hv hlive
  unfold Scheduled.handOver
  cases receiver? feedback stages.length k with
  | none => exact hset
  | some next =>
    intro i v hv hlive
    rw [List.getElem?_modify] at hv
    obtain ⟨w, hw, rfl⟩ := Option.map_eq_some_iff.1 hv
    split at hlive
    · next hnext =>
      rw [halted_deliver] at hlive
      rw [if_pos hnext, machine_deliver]
      exact hset i w hw hlive
    · next hnext =>
      rw [if_neg hnext]
      exact hset i w hw hlive

/-! ## One round -/

/-- What holds of stages of which the first ones have had their turns, given the stages before the
round. -/
structure Turned (feedback : Bool) (start : List Stage) (j : Nat) (state : List Stage × Bool) :
    Prop where
  length : state.1.length = start.length
  sound : Sound state.1
  reaches : (network feedback start).Reaches (network feedback state.1)
  stays : state.2 = false → network feedback state.1 = network feedback start
  dormant : feedback = false ∨ state.2 = false →
    ∀ i < j, ((network feedback state.1).node i).IsDormant
  total_le : total state.1 ≤ total start
  total_lt : state.2 = true → total state.1 < total start

variable {start : List Stage} {state state' : List Stage × Bool} {j : Nat}

/-- Before the first turn of a round nothing has changed. -/
lemma turned_zero (hsound : Sound start) : Turned feedback start 0 (start, false) where
  length := rfl
  sound := hsound
  reaches := ReflTransGen.refl
  stays _ := rfl
  dormant _ i hi := absurd hi (Nat.not_lt_zero i)
  total_le := Nat.le_refl _
  total_lt h := by cases h

/-- A run in the network that stages show. -/
lemma reaches_runOf (hsound : Sound stages) (hs : stages[k]? = some s) (hlive : s.halted = false) :
    (network feedback stages).Reaches
      ((network feedback stages).apply k (restNode (runOf s), (runOf s).port.outputs.toList)) := by
  have hk : k < stages.length := (List.getElem?_eq_some_iff.1 hs).1
  have hnode : .live s.machine.core s.inbox = (network feedback stages).node k := by
    rw [node_network hs, Stage.node_of_not_halted hlive]
  have hrun := reaches_runWith (network feedback stages) hk (hsound k s hs hlive) ⟨s.inbox, #[]⟩
  change ((network feedback stages).apply k (.live s.machine.core s.inbox, [])).Reaches _ at hrun
  rw [hnode, Network.apply_node] at hrun
  exact hrun

/-- A turn that counts no instruction leaves the network as it is, and the stage waits. -/
lemma network_handOver_of_steps_eq {stop : Stop} (hsound : Sound stages) (hs : stages[k]? = some s)
    (hlive : s.halted = false) (hanswer : (runOf s).answer = .ok stop)
    (hsteps : (runOf s).machine.steps = s.machine.steps) :
    network feedback (handOver feedback stages k (runOf s) stop) = network feedback stages ∧
      ((network feedback stages).node k).IsIdle := by
  have hm := hsound k s hs hlive
  have hk : k < stages.length := (List.getElem?_eq_some_iff.1 hs).1
  have hnode : (network feedback stages).node k = .live s.machine.core s.inbox := by
    rw [node_network hs, Stage.node_of_not_halted hlive]
  obtain ⟨rfl, hcore, hport⟩ := runWith_buffered_of_steps_eq hm hanswer hsteps
  have hrest : restNode (runOf s) = (network feedback stages).node k := by
    unfold restNode runOf
    unfold runOf at hanswer
    rw [hanswer, hcore, hport, hnode]
  have houtputs : (runOf s).port.outputs.toList = [] := by
    unfold runOf
    rw [hport]
  have hidle := ((runWith_buffered_cases hm ⟨s.inbox, #[]⟩).2 hanswer).2
  rw [network_handOver feedback hk hanswer, houtputs, hrest, Network.apply_node]
  exact ⟨rfl, hrest ▸ hidle⟩

/-- After its turn a stage has halted or waits, unless it feeds itself. -/
lemma isDormant_restNode {stop : Stop} (hm : s.machine.status ≠ .halted)
    (hanswer : (runOf s).answer = .ok stop) : (restNode (runOf s)).IsDormant := by
  cases stop with
  | halted =>
    right
    unfold restNode
    rw [hanswer]
    exact ⟨_, rfl⟩
  | awaitingInput => exact Or.inl ((runWith_buffered_cases hm ⟨s.inbox, #[]⟩).2 hanswer).2

/-- Without feedback nothing is delivered to a stage or to one before it. -/
lemma parcel_eq_nil_of_le {c : Network EndlessMachine} (hfeedback : c.feedback = false)
    (hij : i ≤ j) (emitted : List Word) : c.parcel j i emitted = [] := by
  refine Network.parcel_of_not_receiver fun h => ?_
  exact absurd (lt_of_receiver? (hfeedback ▸ h)) (Nat.not_lt_of_le hij)

/-- Without feedback the stages up to one that has had its turn have halted or wait. -/
lemma isDormant_apply_runOf {stop : Stop} (hfeedback : feedback = false)
    (hm : s.machine.status ≠ .halted) (hanswer : (runOf s).answer = .ok stop)
    (hdormant : ∀ i < j, ((network feedback stages).node i).IsDormant) (emitted : List Word) :
    ∀ i < j + 1,
      (((network feedback stages).apply j (restNode (runOf s), emitted)).node i).IsDormant := by
  refine Nat.forall_lt_succ_right.2 ⟨fun i hi => ?_, ?_⟩
  · rw [Network.node_apply_of_ne (Nat.ne_of_lt hi),
      parcel_eq_nil_of_le hfeedback (Nat.le_of_lt hi), Node.deliver_nil]
    exact hdormant i hi
  · rw [Network.node_apply_self, parcel_eq_nil_of_le hfeedback (Nat.le_refl j), Node.deliver_nil]
    exact isDormant_restNode hm hanswer

/-- A run adds nothing to the instructions that stages may still execute. -/
lemma total_handOver_le (feedback : Bool) (hs : stages[k]? = some s) (stop : Stop) :
    total (handOver feedback stages k (runOf s) stop) ≤ total stages := by
  have htotal := total_handOver feedback hs (runOf s) stop
  have hspent : s.machine.Spent (runOf s).machine := spent_runWith _ _ _
  rcases hspent with ⟨_, hequal⟩ | hless
  · omega
  · omega

/-- A run that counts instructions uses some of them up. -/
lemma total_handOver_lt (feedback : Bool) (hs : stages[k]? = some s) (stop : Stop)
    (hsteps : (runOf s).machine.steps ≠ s.machine.steps) :
    total (handOver feedback stages k (runOf s) stop) < total stages := by
  have htotal := total_handOver feedback hs (runOf s) stop
  have hspent : s.machine.Spent (runOf s).machine := spent_runWith _ _ _
  rcases hspent with ⟨hequal, _⟩ | hless
  · exact absurd hequal hsteps
  · omega

/-- A stage that has halted lets its turn pass. -/
lemma turn_of_halted (progressed : Bool) (hs : stages[k]? = some s) (hhalted : s.halted = true) :
    turn feedback (stages, progressed) k = .ok (stages, progressed) := by
  unfold turn
  simp only [hs, hhalted, if_true]

/-- The turn of a stage that has halted. -/
lemma Turned.pass {progressed : Bool} (h : Turned feedback start j (stages, progressed))
    (hs : stages[j]? = some s) (hhalted : s.halted = true) :
    Turned feedback start (j + 1) (stages, progressed) where
  length := h.length
  sound := h.sound
  reaches := h.reaches
  stays := h.stays
  dormant hcase := by
    refine Nat.forall_lt_succ_right.2 ⟨h.dormant hcase, Or.inr ⟨s.machine.lastOutput, ?_⟩⟩
    rw [node_network hs, Stage.node_of_halted hhalted]
  total_le := h.total_le
  total_lt := h.total_lt

/-- The turn of a stage that makes a run without a fault. -/
lemma Turned.run {progressed : Bool} {stop : Stop}
    (h : Turned feedback start j (stages, progressed)) (hs : stages[j]? = some s)
    (hlive : s.halted = false) (hanswer : (runOf s).answer = .ok stop) :
    Turned feedback start (j + 1) (handOver feedback stages j (runOf s) stop,
      progressed || (runOf s).machine.steps ≠ s.machine.steps) := by
  obtain ⟨hlength, hsound, hreaches, hstays, hdormant, hle, hlt⟩ := h
  have hj : j < stages.length := (List.getElem?_eq_some_iff.1 hs).1
  have hm := hsound j s hs hlive
  have hnetwork := network_handOver feedback hj hanswer
  -- A turn that counts no instruction is one in which the stage can only wait.
  have hidle (hno : (progressed || decide ((runOf s).machine.steps ≠ s.machine.steps)) = false) :
      progressed = false ∧
        network feedback (handOver feedback stages j (runOf s) stop) = network feedback stages ∧
          ((network feedback stages).node j).IsIdle := by
    obtain ⟨hprogressed, hsteps⟩ := Bool.or_eq_false_iff.1 hno
    have hsteps := not_not.1 (of_decide_eq_false hsteps)
    exact ⟨hprogressed, network_handOver_of_steps_eq hsound hs hlive hanswer hsteps⟩
  refine ⟨(length_handOver _ stop).trans hlength, hsound.handOver ?_, ?_, ?_, ?_, ?_, ?_⟩
  · rintro rfl
    exact ((runWith_buffered_cases hm _).2 hanswer).1
  · rw [hnetwork]
    exact hreaches.trans (reaches_runOf hsound hs hlive)
  · intro hno
    obtain ⟨hprogressed, hsame, _⟩ := hidle hno
    exact hsame.trans (hstays hprogressed)
  · rintro (hfeedback | hno)
    · rw [hnetwork]
      exact isDormant_apply_runOf hfeedback hm hanswer (hdormant (Or.inl hfeedback)) _
    · obtain ⟨hprogressed, hsame, hwaits⟩ := hidle hno
      rw [hsame]
      exact Nat.forall_lt_succ_right.2 ⟨hdormant (Or.inr hprogressed), Or.inl hwaits⟩
  · exact Nat.le_trans (total_handOver_le feedback hs stop) hle
  · intro hyes
    rcases Bool.or_eq_true_iff.1 hyes with hprogressed | hsteps
    · exact Nat.lt_of_le_of_lt (total_handOver_le feedback hs stop) (hlt hprogressed)
    · exact Nat.lt_of_lt_of_le
        (total_handOver_lt feedback hs stop (of_decide_eq_true hsteps)) hle

/-- One more turn. -/
lemma Turned.turn (h : Turned feedback start j state) (hj : j < start.length)
    (hturn : turn feedback state j = .ok state') : Turned feedback start (j + 1) state' := by
  obtain ⟨stages, progressed⟩ := state
  have hj' : j < stages.length := by
    have hlength : stages.length = start.length := h.length
    rwa [hlength]
  have hs : stages[j]? = some stages[j] := List.getElem?_eq_getElem hj'
  cases hhalted : stages[j].halted with
  | true =>
    rw [turn_of_halted progressed hs hhalted] at hturn
    cases hturn
    exact h.pass hs hhalted
  | false =>
    rw [turn_eq progressed hs hhalted] at hturn
    cases hanswer : (runOf stages[j]).answer with
    | error fault =>
      rw [hanswer] at hturn
      cases hturn
    | ok stop =>
      rw [hanswer] at hturn
      cases hturn
      exact h.run hs hhalted hanswer

lemma foldlM_range_succ (j : Nat) :
    (List.range (j + 1)).foldlM (turn feedback) state =
      (List.range j).foldlM (turn feedback) state >>= fun before => turn feedback before j := by
  rw [List.range_succ, List.foldlM_append]
  simp only [List.foldlM_cons, List.foldlM_nil, bind_pure]

/-- The first turns of a round. -/
lemma turned_foldlM (hsound : Sound start) (hj : j ≤ start.length)
    (h : (List.range j).foldlM (turn feedback) (start, false) = .ok state) :
    Turned feedback start j state := by
  induction j generalizing state with
  | zero =>
    cases h
    exact turned_zero hsound
  | succ j ih =>
    rw [foldlM_range_succ] at h
    cases hturns : (List.range j).foldlM (turn feedback) (start, false) with
    | error fault =>
      rw [hturns] at h
      cases h
    | ok before =>
      rw [hturns] at h
      exact (ih (Nat.le_of_succ_le hj) hturns).turn hj h

/-- A fault ends the round at the turn in which it occurs. -/
lemma exists_turn_of_foldlM_error {fault : Fault}
    (h : (List.range j).foldlM (turn feedback) (start, false) = .error fault) :
    ∃ k < j, ∃ before, (List.range k).foldlM (turn feedback) (start, false) = .ok before ∧
      turn feedback before k = .error fault := by
  induction j with
  | zero => cases h
  | succ j ih =>
    rw [foldlM_range_succ] at h
    cases hturns : (List.range j).foldlM (turn feedback) (start, false) with
    | error earlier =>
      rw [hturns] at h
      cases h
      obtain ⟨k, hk, hbefore⟩ := ih hturns
      exact ⟨k, Nat.lt_succ_of_lt hk, hbefore⟩
    | ok before =>
      rw [hturns] at h
      exact ⟨j, Nat.lt_succ_self j, before, hturns, h⟩

/-! ## All rounds -/

/-- Some process of a network has ended with a fault of its own; without feedback, those before it
have ended without a fault or wait. -/
def Faulted (d : Network EndlessMachine) (fault : Fault) : Prop :=
  ∃ k < d.count, d.node k = .ended (.error fault) ∧ fault ≠ .channelClosed ∧
    (d.feedback = false → ∀ i < k, (d.node i).IsDormant)

/-- A round that faults shows a process that has ended with the fault. -/
lemma faulted_of_round {fault : Fault} (hsound : Sound start)
    (h : round feedback start = .error fault) :
    ∃ d, (network feedback start).Reaches d ∧ Faulted d fault := by
  obtain ⟨k, hk, ⟨stages, progressed⟩, hbefore, hturn⟩ := exists_turn_of_foldlM_error h
  obtain ⟨hlength, hsound', hreaches, _, hdormant, _, _⟩ :=
    turned_foldlM hsound (Nat.le_of_lt hk) hbefore
  have hk' : k < stages.length := hlength ▸ hk
  have hs : stages[k]? = some stages[k] := List.getElem?_eq_getElem hk'
  cases hhalted : stages[k].halted with
  | true =>
    rw [turn_of_halted progressed hs hhalted] at hturn
    cases hturn
  | false =>
    have hm := hsound' k _ hs hhalted
    rw [turn_eq progressed hs hhalted] at hturn
    cases hanswer : (runOf stages[k]).answer with
    | ok stop =>
      rw [hanswer] at hturn
      cases hturn
    | error fault' =>
      rw [hanswer] at hturn
      cases hturn
      have hrest : restNode (runOf stages[k]) = .ended (.error fault) := by
        unfold restNode
        rw [hanswer]
      refine ⟨_, hreaches.trans (reaches_runOf hsound' hs hhalted), k, hk', ?_, ?_, ?_⟩
      · rw [Network.node_apply_self, hrest]
        rfl
      · exact (runWith_buffered_cases hm _).1 fault hanswer
      · intro hfeedback i hi
        have hparcel := parcel_eq_nil_of_le (c := network feedback stages) hfeedback
          (Nat.le_of_lt hi) (runOf stages[k]).port.outputs.toList
        rw [Network.node_apply_of_ne (Nat.ne_of_lt hi), hparcel, Node.deliver_nil]
        exact hdormant (Or.inl hfeedback) i hi

/-- All processes of a network have ended without a fault. -/
def Halted (d : Network EndlessMachine) : Prop :=
  ∀ k < d.count, ∃ output, d.node k = .ended (.ok output)

/-- The signal of stages that have ended without a fault: what the last one emitted last. -/
def lastSignal (endings : List (Except Fault (Option Word))) : Except Error Word :=
  match endings.getLast? with
  | some (.ok (some value)) => .ok value
  | _ => .error .noOutput

/-- What the rounds come to, told from a network. -/
inductive Explains (d : Network EndlessMachine) : Except Error Word → Prop
  | signal (hhalted : Halted d) : Explains d (lastSignal d.endings)
  | deadlock (hdormant : ∀ k < d.count, (d.node k).IsDormant) (hwaits : ¬ Halted d) :
    Explains d (.error .deadlock)
  | fault {fault : Fault} (hfaulted : Faulted d fault) : Explains d (.error (.fault fault))

lemma endings_network (feedback : Bool) (stages : List Stage) :
    (network feedback stages).endings = stages.map fun s => s.node.ending := by
  refine List.ext_getElem (by simp [Network.endings, network]) fun i hi _ => ?_
  have hi' : i < stages.length := by simpa [Network.endings, network] using hi
  simp [Network.endings, network, nodeAt, hi']

/-- The signal of stages that have all halted is told by their network. -/
lemma signal_eq (feedback : Bool) (h : ∀ s ∈ stages, s.halted = true) :
    signal stages = lastSignal (network feedback stages).endings := by
  unfold signal lastSignal
  rw [endings_network, List.getLast?_map]
  cases hlast : stages.getLast? with
  | none => rfl
  | some s =>
    have hs : s.node = .ended (.ok s.machine.lastOutput) :=
      Stage.node_of_halted (h s (List.mem_of_getLast? hlast))
    rw [Option.map_some, hs, Option.bind_some, Node.ending]
    cases s.machine.lastOutput with
    | none => rfl
    | some value => rfl

/-- The network is halted exactly if all stages are marked. -/
lemma halted_network_iff (feedback : Bool) (stages : List Stage) :
    Halted (network feedback stages) ↔ ∀ s ∈ stages, s.halted = true := by
  constructor
  · intro h s hs
    obtain ⟨k, hk, rfl⟩ := List.mem_iff_getElem.1 hs
    obtain ⟨output, hended⟩ := h k hk
    rw [node_network (List.getElem?_eq_getElem hk)] at hended
    cases hhalted : stages[k].halted with
    | true => rfl
    | false =>
      rw [Stage.node_of_not_halted hhalted] at hended
      cases hended
  · intro h k hk
    have hs : stages[k]? = some stages[k] := List.getElem?_eq_getElem hk
    rw [node_network hs, Stage.node_of_halted (h _ (List.getElem_mem hk))]
    exact ⟨_, rfl⟩

/-- There are never more rounds than steps that may be executed, and one; and what the rounds come
to is explained by a network that the stages lead to. -/
theorem rounds_explained (feedback : Bool) {count : Nat} (hsound : Sound stages)
    (hcount : total stages < count) :
    ∃ result d, rounds feedback count stages = some result ∧
      (network feedback stages).Reaches d ∧ Explains d result := by
  induction count generalizing stages with
  | zero => exact absurd hcount (Nat.not_lt_zero _)
  | succ count ih =>
    unfold rounds
    by_cases hall : stages.all Stage.halted = true
    · have hmarked : ∀ s ∈ stages, s.halted = true := List.all_eq_true.1 hall
      rw [if_pos hall, signal_eq feedback hmarked]
      exact ⟨_, _, rfl, ReflTransGen.refl, .signal ((halted_network_iff feedback stages).2 hmarked)⟩
    · rw [if_neg hall]
      cases hround : round feedback stages with
      | error fault =>
        obtain ⟨d, hreaches, hfaulted⟩ := faulted_of_round hsound hround
        exact ⟨_, d, rfl, hreaches, .fault hfaulted⟩
      | ok state =>
        obtain ⟨stages', progressed⟩ := state
        obtain ⟨_, hsound', hreaches, hstays, hdormant, _, hlt⟩ :=
          turned_foldlM hsound (Nat.le_refl _) hround
        cases progressed with
        | true =>
          obtain ⟨result, d, hrounds, hreaches', hexplains⟩ :=
            ih hsound' (Nat.lt_of_lt_of_le (hlt rfl) (Nat.le_of_lt_succ hcount))
          exact ⟨result, d, hrounds, hreaches.trans hreaches', hexplains⟩
        | false =>
          have hsame : network feedback stages' = network feedback stages := hstays rfl
          refine ⟨_, _, rfl, ReflTransGen.refl, .deadlock (fun k hk => ?_) fun hhalted => hall ?_⟩
          · rw [← hsame]
            exact hdormant (Or.inr rfl) k hk
          · exact List.all_eq_true.2 ((halted_network_iff feedback stages).1 hhalted)

end Scheduled

end Intcode.Amplifier
