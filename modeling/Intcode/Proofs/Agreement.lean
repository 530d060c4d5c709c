import Intcode.Proofs.Interleaving
import Intcode.Proofs.Turns
import Mathlib.Control.Monad.Basic
import Mathlib.Data.Nat.Find

/-!
# Two ways to run an amplifier agree

The stages of an amplifier may take turns or run concurrently.  This module proves that both ways
give the same signal, and that a deadlock of the one is a closed channel of the other or, with
feedback, a wait without an end; and it says which faults they report when a stage faults
(`runScheduled_agrees`).

Both ways begin with the same network (`network_line`).  The network that explains what the rounds
come to leads to the one in which the stages that run concurrently end up, and there a process that
has ended is still as it was.
-/

namespace Intcode.Amplifier

open Relation Machine Scheduled

variable {results : List (Except Fault (Option Word))} {stage : Nat} {fault : Fault}

/-! ## What results make up -/

/-- The first stage that has a fault of its own, and the fault. -/
def FirstFault (results : List (Except Fault (Option Word))) (stage : Nat) (fault : Fault) : Prop :=
  results[stage]? = some (.error fault) ∧ fault ≠ .channelClosed ∧
    ∀ i < stage, ∀ other, results[i]? = some (.error other) → other = .channelClosed

/-- How a fault of a stage is reported: a tape that could not be kept breaks the stage off. -/
def report (stage : Nat) (fault : Fault) : Error :=
  if fault = .capacity then .stageLost stage else .fault fault

lemma report_ne_noOutput (stage : Nat) (fault : Fault) : report stage fault ≠ .noOutput := by
  unfold report
  split
  · simp
  · simp

lemma report_ne_channelClosed (stage : Nat) (h : fault ≠ .channelClosed) :
    report stage fault ≠ .fault .channelClosed := by
  unfold report
  split
  · simp
  · intro hequal
    exact h (Error.fault.inj hequal)

/-- The fault of its own that a stage has, with the stage. -/
def ownFault? : Except Fault (Option Word) × Nat → Option (Nat × Fault)
  | (.error fault, stage) => if fault = .channelClosed then none else some (stage, fault)
  | (.ok _, _) => none

lemma ownFault?_eq_none {r : Except Fault (Option Word)} (stage : Nat)
    (h : ∀ other, r = .error other → other = .channelClosed) : ownFault? (r, stage) = none := by
  cases r with
  | ok output => rfl
  | error other => exact if_pos (h other rfl)

lemma findSome?_of_firstFault (n : Nat) (h : FirstFault results stage fault) :
    (results.zipIdx n).findSome? ownFault? = some (n + stage, fault) := by
  obtain ⟨hfault, hown, hfirst⟩ := h
  induction results generalizing stage n with
  | nil => cases hfault
  | cons r rs ih =>
    rw [List.zipIdx_cons, List.findSome?_cons]
    cases stage with
    | zero =>
      cases hfault
      have hfound : ownFault? (.error fault, n) = some (n, fault) := if_neg hown
      rw [hfound]
      rfl
    | succ stage =>
      have hskip : ownFault? (r, n) = none :=
        ownFault?_eq_none n fun other hother =>
          hfirst 0 (Nat.succ_pos stage) other (congrArg some hother)
      have hrest := ih (n + 1) hfault fun i hi other hother =>
        hfirst (i + 1) (Nat.succ_lt_succ hi) other hother
      rw [hskip, hrest, Nat.add_right_comm]
      rfl

lemma rootCause?_eq (results : List (Except Fault (Option Word))) :
    rootCause? results = results.zipIdx.findSome? ownFault? := by
  unfold rootCause?
  congr 1
  funext r
  rcases r with ⟨fault | output, stage⟩
  · rfl
  · rfl

/-- The first fault is the one that a fault of the whole begins with. -/
lemma rootCause?_of_firstFault (h : FirstFault results stage fault) :
    rootCause? results = some (stage, fault) := by
  rw [rootCause?_eq, findSome?_of_firstFault 0 h, Nat.zero_add]

/-- There is only one first fault. -/
lemma FirstFault.unique {stage' : Nat} {fault' : Fault} (h : FirstFault results stage fault)
    (h' : FirstFault results stage' fault') : stage = stage' ∧ fault = fault' := by
  have hequal := (rootCause?_of_firstFault h).symm.trans (rootCause?_of_firstFault h')
  cases hequal
  exact ⟨rfl, rfl⟩

lemma exists_firstFault {k : Nat} (h : results[k]? = some (.error fault))
    (hown : fault ≠ .channelClosed) : ∃ stage first, FirstFault results stage first := by
  classical
  have hexists : ∃ (k : Nat) (first : Fault), results[k]? = some (.error first) ∧
      first ≠ .channelClosed :=
    ⟨k, fault, h, hown⟩
  obtain ⟨first, hfirst, hown⟩ := Nat.find_spec hexists
  refine ⟨Nat.find hexists, first, hfirst, hown, fun i hi other hother => ?_⟩
  by_contra hne
  exact Nat.find_min hexists hi ⟨other, hother, hne⟩

/-- A first fault is reported. -/
lemma collect_of_firstFault (h : FirstFault results stage fault) :
    collect results = .error (report stage fault) := by
  unfold collect report
  rw [rootCause?_of_firstFault h]
  cases fault <;> rfl

/-- Without a fault of a stage's own there is no first fault. -/
lemma rootCause?_eq_none (h : ∀ r ∈ results, ∀ other, r = .error other → other = .channelClosed) :
    rootCause? results = none := by
  rw [rootCause?_eq]
  refine List.findSome?_eq_none_iff.2 fun ⟨r, i⟩ hr => ?_
  exact ownFault?_eq_none i (h r (List.fst_mem_of_mem_zipIdx hr))

/-- Stages that have all ended without a fault give the signal of the last one. -/
lemma collect_of_ok (h : ∀ r ∈ results, ∃ output, r = .ok output) :
    collect results = lastSignal results := by
  have hnone : rootCause? results = none := by
    refine rootCause?_eq_none fun r hr other hother => ?_
    obtain ⟨output, rfl⟩ := h r hr
    cases hother
  have hstarved : results.any isStarved = false := by
    refine List.any_eq_false.2 fun r hr => ?_
    obtain ⟨output, rfl⟩ := h r hr
    exact Bool.false_ne_true
  unfold collect
  rw [hnone, hstarved]
  rfl

/-- Stages of which some have ended over a closed channel, and the others without a fault. -/
lemma collect_of_closed (h : ∀ r ∈ results, ∀ other, r = .error other → other = .channelClosed)
    (hclosed : .error .channelClosed ∈ results) :
    collect results = .error (.fault .channelClosed) := by
  have hstarved : results.any isStarved = true := List.any_eq_true.2 ⟨_, hclosed, rfl⟩
  unfold collect
  rw [rootCause?_eq_none h, hstarved]
  rfl

/-! ## The same beginning -/

/-- Both ways to run an amplifier begin with the same network. -/
lemma network_line (a : Amplifier) :
    a.line.network = Scheduled.network a.settings.feedback (Scheduled.stages a) := by
  unfold Line.network Scheduled.network
  congr 1
  · simp [line, Scheduled.stages, length_firstInputs]
  · funext k
    have hlength := a.length_firstInputs
    by_cases hk : k < a.phases.length
    · have hinput : k < a.firstInputs.length := hlength.symm ▸ hk
      have hw : a.line.workers[k]? = some ⟨a.stageMachine, none⟩ := by simp [line, hk]
      have hs : (Scheduled.stages a)[k]? = some ⟨a.stageMachine, a.firstInputs[k], false⟩ := by
        simp [Scheduled.stages, hinput]
      have hwaiting : Line.waiting a.line.channels k = a.firstInputs[k] := by
        simp [Line.waiting, line, hinput, Queue.toList_ofList]
      rw [hw, hs]
      change Node.live a.stageMachine.core (Line.waiting a.line.channels k) = _
      rw [hwaiting]
      rfl
    · have hw : a.line.workers[k]? = none := by simp [line, Nat.le_of_not_lt hk]
      have hs : (Scheduled.stages a)[k]? = none := by
        simp [Scheduled.stages, hlength, Nat.le_of_not_lt hk]
      rw [hw, hs]
      rfl

/-- Stages are sound before the first round. -/
lemma sound_stages (a : Amplifier) : Scheduled.Sound (Scheduled.stages a) := by
  intro k s hs _
  unfold Scheduled.stages at hs
  rw [List.getElem?_map] at hs
  obtain ⟨inbox, _, rfl⟩ := Option.map_eq_some_iff.1 hs
  simp [stageMachine, boot]

/-- There are as many rounds as there can be. -/
lemma total_stages_lt (a : Amplifier) : total (Scheduled.stages a) < roundLimit a := by
  have htotal : total (Scheduled.stages a) =
      a.phases.length * a.settings.machine.stepLimit.toNat := by
    unfold total Scheduled.stages
    rw [List.map_map, ← a.length_firstInputs]
    change (a.firstInputs.map fun _ => a.stageMachine.remaining).sum = _
    rw [List.map_const', List.sum_replicate_nat]
    rfl
  unfold roundLimit
  omega

/-- The end that the rounds come to, with the network that explains it. -/
lemma runScheduled_explained (a : Amplifier) (h : a.phases ≠ []) :
    ∃ d, a.line.network.Reaches d ∧ Explains d a.runScheduled := by
  obtain ⟨result, d, hrounds, hreaches, hexplains⟩ :=
    rounds_explained a.settings.feedback a.sound_stages a.total_stages_lt
  have hphases : a.phases.isEmpty = false := by simpa using h
  refine ⟨d, a.network_line ▸ hreaches, ?_⟩
  unfold runScheduled
  rw [hphases, hrounds]
  exact hexplains

/-! ## The same end -/

/-- Every stage ends up waiting for another. -/
def BlocksForever (a : Amplifier) : Prop := ∀ l, a.EndsIn l → l.AllBlocked

/-- Stages that have all come to their ends give results, on whatever way they have come there. -/
lemma EndsIn.results?_eq {a : Amplifier} {l l' : Line} (h : a.EndsIn l) (h' : a.EndsIn l')
    (hended : ∀ k < l'.network.count, ∃ ending, l'.network.node k = .ended ending) :
    l.results? = some l'.network.endings := by
  rw [Line.results?_congr (h.network_eq h'), Line.results?_eq_some hended]

/-- Stages that have all come to their ends make up a signal or an error. -/
lemma runConcurrent_of_ended {a : Amplifier} (h : a.phases ≠ [])
    (hended : ∀ k < a.line.settle.network.count, ∃ ending,
      a.line.settle.network.node k = .ended ending) :
    a.runConcurrent = some (collect a.line.settle.network.endings) := by
  have hphases : a.phases.isEmpty = false := by simpa using h
  unfold runConcurrent
  rw [hphases, Line.results?_eq_some hended]
  rfl

lemma count_settle (a : Amplifier) : a.line.settle.network.count = a.phases.length := by
  have hcount := (Network.shape_of_reaches a.endsIn_settle.network.2.1).2
  rw [hcount, network_line]
  simp [Scheduled.network, Scheduled.stages, length_firstInputs]

/-- Stages that wait for each other for ever give nothing. -/
lemma runConcurrent_eq_none {a : Amplifier} (h : a.phases ≠ []) (hblocks : a.BlocksForever) :
    a.runConcurrent = none := by
  have hphases : a.phases.isEmpty = false := by simpa using h
  have hcount : 0 < a.line.settle.network.count := by
    rw [count_settle]
    exact List.length_pos_iff.2 h
  have hw : a.line.settle.workers[0]? = some a.line.settle.workers[0] :=
    Array.getElem?_eq_getElem hcount
  obtain ⟨hresult, _⟩ := hblocks _ a.endsIn_settle 0 _ hw
  have hlive : (a.line.settle.network.node 0).isLive = true := by
    rw [Line.node_network hw, Worker.isLive_node, hresult]
    rfl
  unfold runConcurrent
  rw [hphases, Line.results?_eq_none hcount hlive]
  rfl

/-- How the two ways to run an amplifier come to an end. -/
inductive Agree (a : Amplifier) : Except Error Word → Option (Except Error Word) → Prop
  | signal (value : Word) : Agree a (.ok value) (some (.ok value))
  | noOutput : Agree a (.error .noOutput) (some (.error .noOutput))
  | closed : Agree a (.error .deadlock) (some (.error (.fault .channelClosed)))
  | forever (hfeedback : a.settings.feedback = true) (hblocks : a.BlocksForever) :
    Agree a (.error .deadlock) none
  | fault {turns first : Fault} {stage k : Nat} {results : List (Except Fault (Option Word))}
    (hresults : ∀ l, a.EndsIn l → l.results? = some results)
    (hfirst : FirstFault results stage first) (hturns : results[k]? = some (.error turns))
    (hown : turns ≠ .channelClosed) (hsame : a.settings.feedback = false → turns = first) :
    Agree a (.error (.fault turns)) (some (.error (report stage first)))

section Agree

variable {a : Amplifier} {d : Network EndlessMachine}

/-- Stages that have all halted in turns halt with the same outputs when they run concurrently. -/
lemma agree_of_halted (h : a.phases ≠ []) (hd : d.Reaches a.line.settle.network)
    (hhalted : Halted d) : a.Agree (lastSignal d.endings) a.runConcurrent := by
  have hcount := (Network.shape_of_reaches hd).2
  have hnode (k : Nat) (hk : k < d.count) : ∃ output, d.node k = .ended (.ok output) ∧
      a.line.settle.network.node k = .ended (.ok output) := by
    obtain ⟨output, hended⟩ := hhalted k hk
    exact ⟨output, hended, Network.ended_of_reaches hd hended⟩
  have hendings : a.line.settle.network.endings = d.endings := by
    unfold Network.endings
    rw [hcount]
    refine List.map_congr_left fun k hk => ?_
    obtain ⟨output, hended, hended'⟩ := hnode k (List.mem_range.1 hk)
    rw [hended, hended']
  have hok : ∀ r ∈ d.endings, ∃ output, r = .ok output := by
    intro r hr
    obtain ⟨k, hk, rfl⟩ := Network.mem_endings.1 hr
    obtain ⟨output, hended, _⟩ := hnode k hk
    exact ⟨output, congrArg Node.ending hended⟩
  have hended : ∀ k < a.line.settle.network.count, ∃ ending,
      a.line.settle.network.node k = .ended ending := by
    intro k hk
    obtain ⟨output, _, hended⟩ := hnode k (hcount ▸ hk)
    exact ⟨_, hended⟩
  rw [runConcurrent_of_ended h hended, hendings, collect_of_ok hok]
  unfold lastSignal
  split
  · exact .signal _
  · exact .noOutput

/-- Stages that can only wait in turns have their channels closed or wait for ever. -/
lemma agree_of_dormant (h : a.phases ≠ []) (hd : d.Reaches a.line.settle.network)
    (hdormant : ∀ k < d.count, (d.node k).IsDormant) (hwaits : ¬ Halted d) :
    a.Agree (.error .deadlock) a.runConcurrent := by
  have hcount := (Network.shape_of_reaches hd).2
  obtain ⟨_, hsettle, hfinal⟩ := a.endsIn_settle.network
  rcases hfinal.ended_or_idle with hended | ⟨hring, hidle⟩
  · have hends := Network.halted_or_closed_of_reaches (· < d.count) hd (fun j hj _ _ _ => hj)
      hdormant (hcount ▸ hended)
    have hclosed : ∃ k < d.count,
        a.line.settle.network.node k = .ended (.error .channelClosed) := by
      by_contra hnone
      refine hwaits fun k hk => (hends k hk).resolve_right fun hclosed => ?_
      exact hnone ⟨k, hk, hclosed⟩
    obtain ⟨k, hk, hclosed⟩ := hclosed
    have hmem : .error .channelClosed ∈ a.line.settle.network.endings :=
      Network.mem_endings.2 ⟨k, hcount.symm ▸ hk, congrArg Node.ending hclosed⟩
    rw [runConcurrent_of_ended h hended, collect_of_closed ?_ hmem]
    · exact .closed
    · intro r hr other hother
      obtain ⟨i, hi, hending⟩ := Network.mem_endings.1 hr
      rcases hends i (hcount ▸ hi) with ⟨output, hhalted⟩ | hclosed
      · rw [Network.ended_of_reaches hd hhalted, hother] at hending
        cases hending
      · rw [hclosed, hother] at hending
        cases hending
        rfl
  · have hblocks : a.BlocksForever := fun l hl =>
      hl.allBlocked (hl.network_eq a.endsIn_settle ▸ hidle)
    rw [runConcurrent_eq_none h hblocks]
    rw [(Network.shape_of_reaches hsettle).1] at hring
    exact .forever hring hblocks

/-- A stage that faults in turns faults as well when the stages run concurrently. -/
lemma agree_of_faulted {fault : Fault} (h : a.phases ≠ []) (hd : d.Reaches a.line.settle.network)
    (hfaulted : Faulted d fault) : a.Agree (.error (.fault fault)) a.runConcurrent := by
  obtain ⟨hfeedback, hcount⟩ := Network.shape_of_reaches hd
  obtain ⟨_, hsettle, hfinal⟩ := a.endsIn_settle.network
  obtain ⟨k, hk, hnode, hown, hdormant⟩ := hfaulted
  have hk' : k < a.line.settle.network.count := hcount.symm ▸ hk
  have hfault := Network.ended_of_reaches hd hnode
  have hended : ∀ i < a.line.settle.network.count, ∃ ending,
      a.line.settle.network.node i = .ended ending := by
    refine hfinal.ended_or_idle.resolve_right fun ⟨_, hidle⟩ => ?_
    have hlive := (hidle k hk').isLive
    rw [hfault] at hlive
    cases hlive
  have hturns : a.line.settle.network.endings[k]? = some (.error fault) := by
    rw [Network.getElem?_endings hk', hfault]
    rfl
  obtain ⟨stage, first, hfirst⟩ := exists_firstFault hturns hown
  rw [runConcurrent_of_ended h hended, collect_of_firstFault hfirst]
  refine .fault (fun l hl => hl.results?_eq a.endsIn_settle hended) hfirst hturns hown ?_
  -- Without feedback nothing reaches the stages before the one that faults any more, so none of
  -- them can come to a fault of its own.
  intro hchain
  have hrow : d.feedback = false := by
    rw [← hfeedback, (Network.shape_of_reaches hsettle).1]
    exact hchain
  have hends := Network.halted_or_closed_of_reaches (· < k) hd
    (fun j _ i hi hreceiver => Nat.lt_trans (lt_of_receiver? (hrow ▸ hreceiver)) hi)
    (hdormant hrow) fun i hi => hended i (Nat.lt_trans hi hk')
  have hlowest : FirstFault a.line.settle.network.endings k fault := by
    refine ⟨hturns, hown, fun i hi other hother => ?_⟩
    rw [Network.getElem?_endings (Nat.lt_trans hi hk')] at hother
    rcases hends i hi with ⟨output, hhalted⟩ | hclosed
    · rw [Network.ended_of_reaches hd hhalted] at hother
      cases hother
    · rw [hclosed] at hother
      cases hother
      rfl
  exact (hlowest.unique hfirst).2

/-- Both ways to run an amplifier come to the same end. -/
lemma agree (h : a.phases ≠ []) : a.Agree a.runScheduled a.runConcurrent := by
  obtain ⟨d, hreaches, hexplains⟩ := a.runScheduled_explained h
  obtain ⟨_, hsettle, hfinal⟩ := a.endsIn_settle.network
  have hd := Network.reaches_of_isFinal hreaches hsettle hfinal
  generalize a.runScheduled = result at hexplains ⊢
  cases hexplains with
  | signal hhalted => exact agree_of_halted h hd hhalted
  | deadlock hdormant hwaits => exact agree_of_dormant h hd hdormant hwaits
  | fault hfaulted => exact agree_of_faulted h hd hfaulted

variable {s : Except Error Word} {c : Option (Except Error Word)}

/-- One way comes to a signal exactly if the other does. -/
lemma Agree.ok_iff (h : a.Agree s c) (value : Word) : s = .ok value ↔ c = some (.ok value) := by
  cases h with
  | signal v =>
    constructor
    · rintro ⟨⟩
      rfl
    · rintro ⟨⟩
      rfl
  | noOutput => simp
  | closed => simp
  | forever hfeedback hblocks => simp
  | fault hresults hfirst hturns hown hsame => simp

/-- One way comes to no output exactly if the other does. -/
lemma Agree.noOutput_iff (h : a.Agree s c) :
    s = .error .noOutput ↔ c = some (.error .noOutput) := by
  cases h with
  | signal v => simp
  | noOutput => simp
  | closed => simp
  | forever hfeedback hblocks => simp
  | @fault turns first stage k results hresults hfirst hturns hown hsame =>
    refine iff_of_false (by simp) fun hreport => ?_
    exact report_ne_noOutput stage first (Except.error.inj (Option.some.inj hreport))

/-- There is a deadlock in turns exactly if the other way comes to a closed channel or to no end. -/
lemma Agree.deadlock_iff (h : a.Agree s c) (hforever : a.BlocksForever → c = none) :
    s = .error .deadlock ↔ c = some (.error (.fault .channelClosed)) ∨
      a.settings.feedback = true ∧ a.BlocksForever := by
  have hother {result : Except Error Word} (hc : c = some result)
      (hresult : result ≠ .error (.fault .channelClosed)) :
      ¬ (c = some (.error (.fault .channelClosed)) ∨
        a.settings.feedback = true ∧ a.BlocksForever) := by
    rintro (hclosed | ⟨_, hblocks⟩)
    · exact hresult (Option.some.inj (hc.symm.trans hclosed))
    · rw [hforever hblocks] at hc
      cases hc
  cases h with
  | signal value => exact iff_of_false (by simp) (hother rfl (by simp))
  | noOutput => exact iff_of_false (by simp) (hother rfl (by simp))
  | closed => exact iff_of_true rfl (Or.inl rfl)
  | forever hfeedback hblocks => exact iff_of_true rfl (Or.inr ⟨hfeedback, hblocks⟩)
  | @fault turns first stage k results hresults hfirst hturns hown hsame =>
    refine iff_of_false (by simp) (hother rfl fun hreport => ?_)
    exact report_ne_channelClosed stage hfirst.2.1 (Except.error.inj hreport)

end Agree

/-- Both ways to run an amplifier come to the same end.  They give the same signal, and there is no
output in one exactly if there is none in the other.  There is a deadlock in turns exactly if stages
that run concurrently find a channel closed, or, with feedback, wait for each other for ever.  In
every other case both report a fault: the first stage that has one of its own when all run
concurrently, and in turns some stage that has this fault then as well, which without feedback is
the very same fault. -/
theorem runScheduled_agrees (a : Amplifier) (h : a.phases ≠ []) :
    (∀ value, a.runScheduled = .ok value ↔ a.runConcurrent = some (.ok value)) ∧
    (a.runScheduled = .error .noOutput ↔ a.runConcurrent = some (.error .noOutput)) ∧
    (a.runScheduled = .error .deadlock ↔
      a.runConcurrent = some (.error (.fault .channelClosed)) ∨
        a.settings.feedback = true ∧ a.BlocksForever) ∧
    ((∀ value, a.runScheduled ≠ .ok value) → a.runScheduled ≠ .error .noOutput →
      a.runScheduled ≠ .error .deadlock →
      ∃ (turns first : Fault) (stage : Nat) (results : List (Except Fault (Option Word))),
        a.runScheduled = .error (.fault turns) ∧
        a.runConcurrent = some (.error (report stage first)) ∧
        (∀ l, a.EndsIn l → l.results? = some results) ∧
        FirstFault results stage first ∧
        (∃ k : Nat, results[k]? = some (.error turns)) ∧ turns ≠ .channelClosed ∧
        (a.settings.feedback = false → turns = first)) := by
  have hagree := agree h
  refine ⟨hagree.ok_iff, hagree.noOutput_iff, hagree.deadlock_iff (runConcurrent_eq_none h), ?_⟩
  generalize a.runScheduled = s, a.runConcurrent = c at hagree ⊢
  intro hsignal hnoOutput hdeadlock
  cases hagree with
  | signal value => exact absurd rfl (hsignal value)
  | noOutput => exact absurd rfl hnoOutput
  | closed => exact absurd rfl hdeadlock
  | forever hfeedback hblocks => exact absurd rfl hdeadlock
  | @fault turns first stage k results hresults hfirst hturns hown hsame =>
    exact ⟨turns, first, stage, results, rfl, rfl, hresults, hfirst, ⟨k, hturns⟩, hown, hsame⟩

/-- One stage that asks for a third value and feeds itself. -/
def selfFed : Amplifier where
  program := ⟨#[3, 9, 3, 9, 3, 9, 99].map Word.ofCount⟩
  phases := [0]
  settings := ⟨true, 0, {}⟩

/-- The stage that feeds itself waits for ever. -/
theorem runScheduled_agrees_selfFed : selfFed.phases ≠ [] ∧ selfFed.BlocksForever := by
  have hphases : selfFed.phases ≠ [] := by decide
  have hdeadlock : selfFed.runScheduled = .error .deadlock := by decide +kernel
  have hclosed : selfFed.runConcurrent ≠ some (.error (.fault .channelClosed)) := by
    decide +kernel
  obtain ⟨_, _, hends, _⟩ := runScheduled_agrees selfFed hphases
  exact ⟨hphases, ((hends.1 hdeadlock).resolve_left hclosed).2⟩

/-- Two stages with feedback.  The first one reads a word out of all bounds once the second one has
emitted something, but in turns the second one comes to an unknown instruction before. -/
def overtaken : Amplifier where
  program := ⟨#[3, 20, 1005, 20, 11, 3, 20, 3, 20, 4, 1152921504606846975, 104, 0].map Word.ofCount⟩
  phases := [0, 1]
  settings := ⟨true, 0, ⟨100000000, 18446744073709551615, false⟩⟩

/-- Where one way reports a fault, the other need not, since a stage may have broken off. -/
theorem not_runConcurrent_fault_of_runScheduled :
    ¬ ∀ a : Amplifier, a.phases ≠ [] → ∀ turns, a.runScheduled = .error (.fault turns) →
      ∃ first, a.runConcurrent = some (.error (.fault first)) := by
  intro h
  have hturns : overtaken.runScheduled = .error (.fault (.decode 13 (.unknownOpcode 0))) := by
    decide +kernel
  have hlost : overtaken.runConcurrent = some (.error (.stageLost 0)) := by decide +kernel
  obtain ⟨first, hfirst⟩ := h overtaken (by decide) _ hturns
  rw [hlost] at hfirst
  cases hfirst

end Intcode.Amplifier
