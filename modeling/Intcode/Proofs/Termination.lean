import Intcode.Proofs.Composition

/-!
# Every run ends

Nothing in the loop of a run, or in the rounds of an amplifier, says when it is over: a port may
have input for ever, and machines may feed each other in a circle.  What ends them is that
instructions are counted, and that a machine which is not suspended at once completes one.

A run is cut off here after a number of executions (`Machine.runWithin`), and it turns out that one
more than the steps that are left is always enough (`Machine.runWithin_eq`).  In the same way no
amplifier takes more rounds than its stages have steps in all, and one.  The reason is told by what
a round leaves behind (`Counted`): if it ends with the flag set, the stages have executed more
instructions than before, and if not, each of them has halted or waits for input that nobody sends.
-/

namespace Intcode

namespace Machine

variable {σ : Type} {m : Machine} {port : Port σ} {s : σ} {b : Buffer} {stop : Stop}

/-! ## Runs -/

/-- A run that is given a number of executions, and has no answer if they are not enough. -/
def runWithin (port : Port σ) : Nat → Machine → σ → Option (Turn Stop σ)
  | 0, _, _ => none
  | executions + 1, m, s =>
    match m.execute port s with
    | ⟨.error fault, m', s'⟩ => some ⟨.error fault, m', s'⟩
    | ⟨.ok .halted, m', s'⟩ => some ⟨.ok .halted, m', s'⟩
    | ⟨.ok .needsInput, m', s'⟩ => some ⟨.ok .awaitingInput, m', s'⟩
    | ⟨.ok .running, m', s'⟩ => runWithin port executions m' s'
    | ⟨.ok (.hasOutput _), m', s'⟩ => runWithin port executions m' s'

/-- More executions than there are steps left are enough for a run. -/
lemma runWithin_eq {executions : Nat} (h : m.remaining < executions) :
    runWithin port executions m s = some (m.runWith port s) := by
  induction executions generalizing m s with
  | zero => exact absurd h (Nat.not_lt_zero _)
  | succ executions ih =>
    unfold runWithin
    rw [runWith_eq]
    rcases hexecute : m.execute port s with ⟨fault | status, m', s'⟩
    · rfl
    · -- An execution behind which the run goes on has used up a step.
      have hless (hhalted : status ≠ .halted) (hneeds : status ≠ .needsInput) :
          m'.remaining < executions :=
        Nat.lt_of_lt_of_le (remaining_lt_of_execute_eq hexecute hhalted hneeds)
          (Nat.le_of_lt_succ h)
      cases status with
      | halted => rfl
      | needsInput => rfl
      | running => exact ih (hless (by simp) (by simp))
      | hasOutput value => exact ih (hless (by simp) (by simp))

/-- A run in front of a buffer that is suspended has used up what was in the buffer, and the machine
asks for more. -/
lemma asks_of_runWith (h : (m.runWith Port.buffered b).answer = .ok .awaitingInput) :
    (m.runWith Port.buffered b).machine.Asks ∧ (m.runWith Port.buffered b).port.inputs = [] := by
  rcases hrun : m.runWith Port.buffered b with ⟨answer, m', b'⟩
  rw [hrun] at h
  change answer = _ at h
  rw [h] at hrun
  obtain ⟨m₁, b₁, hlast⟩ := exists_execute_of_runWith hrun
  have hasks := asks_of_needsInput (congrArg Turn.answer hlast)
  rw [hlast] at hasks
  refine ⟨hasks, ?_⟩
  have hreceive := (suspends_of_execute_eq hlast).receive
  rcases b₁ with ⟨_ | ⟨value, rest⟩, outputs⟩
  · cases hreceive
    rfl
  · cases hreceive

/-- A run that counts no instruction leaves the buffer as it is. -/
lemma port_of_steps_eq (hanswer : (m.runWith Port.buffered b).answer = .ok stop)
    (hsteps : (m.runWith Port.buffered b).machine.steps = m.steps) :
    (m.runWith Port.buffered b).port = b := by
  by_cases hm : m.status = .halted
  · rw [runWith_of_halted hm]
  · exact (Amplifier.runWith_buffered_of_steps_eq hm hanswer hsteps).2.2

end Machine

namespace Amplifier

/-- The stage can do nothing: it has halted, or it stands at an input instruction, and there is no
value for it, neither in its inbox nor in the queue of its machine. -/
def Stage.IsStuck (s : Stage) : Prop := s.halted = true ∨ s.inbox = [] ∧ s.machine.Asks

namespace Scheduled

open Machine

variable {feedback : Bool} {stages start : List Stage} {s : Stage} {k j : Nat} {stop : Stop}
  {state state' : List Stage × Bool}

/-! ## Rounds -/

/-- The number of instructions that stages have executed. -/
def executed (stages : List Stage) : Nat := summed (fun m => m.steps.toNat) stages

/-- What has been executed after a run is what the machine of the run has executed more. -/
lemma executed_handOver (feedback : Bool) (hs : stages[k]? = some s) (run : Turn Stop Buffer)
    (stop : Stop) :
    executed (handOver feedback stages k run stop) + s.machine.steps.toNat =
      executed stages + run.machine.steps.toNat :=
  summed_handOver (fun m => m.steps.toNat) feedback hs run stop

/-- A run without outputs changes only the stage that makes it. -/
lemma handOver_of_outputs_eq_nil {run : Turn Stop Buffer} (h : run.port.outputs.toList = []) :
    handOver feedback stages k run stop =
      stages.set k ⟨run.machine, run.port.inputs, stop = .halted⟩ := by
  unfold handOver
  cases receiver? feedback stages.length k with
  | none => rfl
  | some next =>
    have hdeliver : deliver [] = id := funext deliver_nil
    simp only [h, hdeliver]
    exact List.modify_id next _

/-- Behind its turn a stage is stuck, as long as nothing is handed to it. -/
lemma isStuck_afterTurn (hanswer : (runOf s).answer = .ok stop) : (afterTurn s stop).IsStuck := by
  cases stop with
  | halted => exact Or.inl rfl
  | awaitingInput =>
    obtain ⟨hasks, hinputs⟩ := asks_of_runWith hanswer
    exact Or.inr ⟨hinputs, hasks⟩

/-- What holds of stages of which the first ones have had their turns, given the stages before the
round: instructions are counted, and if none has been, the first stages are stuck. -/
structure Counted (start : List Stage) (j : Nat) (state : List Stage × Bool) : Prop where
  /-- There are as many stages as before. -/
  length : state.1.length = start.length
  /-- Nothing that has been executed is taken back. -/
  executed_le : executed start ≤ executed state.1
  /-- If the flag is set, an instruction has been executed. -/
  executed_lt : state.2 = true → executed start < executed state.1
  /-- If not, the stages that have had their turns are stuck. -/
  isStuck : state.2 = false → ∀ i < j, ∀ s, state.1[i]? = some s → s.IsStuck

/-- Before the first turn nothing has been executed. -/
lemma counted_zero (start : List Stage) : Counted start 0 (start, false) where
  length := rfl
  executed_le := Nat.le_refl _
  executed_lt h := by cases h
  isStuck _ i hi := absurd hi (Nat.not_lt_zero i)

/-- A turn that is let pass. -/
lemma Counted.pass (h : Counted start j state)
    (hstuck : ∀ s, state.1[j]? = some s → s.IsStuck) : Counted start (j + 1) state where
  length := h.length
  executed_le := h.executed_le
  executed_lt := h.executed_lt
  isStuck hno := Nat.forall_lt_succ_right.2 ⟨h.isStuck hno, hstuck⟩

/-- The turn of a stage that makes a run without a fault. -/
lemma Counted.run {progressed : Bool} (h : Counted start j (stages, progressed))
    (hs : stages[j]? = some s) (hanswer : (runOf s).answer = .ok stop) :
    Counted start (j + 1) (handOver feedback stages j (runOf s) stop,
      progressed || (runOf s).machine.steps ≠ s.machine.steps) := by
  obtain ⟨hlength, hle, hlt, hstuck⟩ := h
  have hexecuted := executed_handOver feedback hs (runOf s) stop
  have hmore : s.machine.steps.toNat ≤ (runOf s).machine.steps.toNat := steps_le_runWith _ _ _
  refine ⟨(length_handOver _ stop).trans hlength, ?_, fun hyes => ?_, fun hno => ?_⟩
  · change _ ≤ executed stages at hle
    change _ ≤ executed (handOver feedback stages j (runOf s) stop)
    omega
  · change executed start < executed (handOver feedback stages j (runOf s) stop)
    change _ ≤ executed stages at hle
    rcases Bool.or_eq_true_iff.1 hyes with hprogressed | hsteps
    · have hbefore : executed start < executed stages := hlt hprogressed
      omega
    · have hne := mt UInt64.toNat_inj.1 (of_decide_eq_true hsteps)
      omega
  · obtain ⟨hprogressed, hsteps⟩ := Bool.or_eq_false_iff.1 hno
    have hport := port_of_steps_eq hanswer (not_not.1 (of_decide_eq_false hsteps))
    have houtputs : (runOf s).port.outputs.toList = [] := by
      unfold runOf
      rw [hport]
    have hj : j < stages.length := (List.getElem?_eq_some_iff.1 hs).1
    simp only [handOver_of_outputs_eq_nil houtputs]
    refine Nat.forall_lt_succ_right.2 ⟨fun i hi v hv => ?_, fun v hv => ?_⟩
    · rw [List.getElem?_set_ne (Nat.ne_of_gt hi)] at hv
      exact hstuck hprogressed i hi v hv
    · rw [List.getElem?_set_self hj] at hv
      cases hv
      exact isStuck_afterTurn hanswer

/-- One more turn. -/
lemma Counted.turn (h : Counted start j state) (hturn : turn feedback state j = .ok state') :
    Counted start (j + 1) state' := by
  obtain ⟨stages, progressed⟩ := state
  cases hs : stages[j]? with
  | none =>
    simp only [Scheduled.turn, hs] at hturn
    cases hturn
    refine h.pass fun s hs' => ?_
    rw [hs] at hs'
    cases hs'
  | some s =>
    cases hhalted : s.halted with
    | true =>
      rw [turn_of_halted progressed hs hhalted] at hturn
      cases hturn
      refine h.pass fun s' hs' => ?_
      rw [hs] at hs'
      cases hs'
      exact Or.inl hhalted
    | false =>
      rw [turn_eq progressed hs hhalted] at hturn
      cases hanswer : (runOf s).answer with
      | error fault =>
        rw [hanswer] at hturn
        cases hturn
      | ok stop =>
        rw [hanswer] at hturn
        cases hturn
        exact h.run hs hanswer

/-- The first turns of a round. -/
lemma counted_foldlM (h : (List.range j).foldlM (turn feedback) (start, false) = .ok state) :
    Counted start j state := by
  induction j generalizing state with
  | zero =>
    cases h
    exact counted_zero start
  | succ j ih =>
    rw [foldlM_range_succ] at h
    cases hturns : (List.range j).foldlM (turn feedback) (start, false) with
    | error fault =>
      rw [hturns] at h
      cases h
    | ok before =>
      rw [hturns] at h
      exact (ih hturns).turn h

/-- Rounds that have come to an end are not changed by more rounds that they might take. -/
lemma rounds_of_le {count more : Nat} {result : Except Error Word}
    (h : rounds feedback count stages = some result) (hmore : count ≤ more) :
    rounds feedback more stages = some result := by
  induction count generalizing stages more with
  | zero => cases h
  | succ count ih =>
    obtain ⟨more, rfl⟩ := Nat.exists_eq_add_of_le' (Nat.le_trans (Nat.le_add_left 1 count) hmore)
    unfold rounds at h ⊢
    split at h
    · next hall =>
      rw [if_pos hall]
      exact h
    · next hall =>
      rw [if_neg hall]
      rcases hround : round feedback stages with fault | ⟨stages', _ | _⟩
      · rw [hround] at h
        exact h
      · rw [hround] at h
        exact h
      · rw [hround] at h
        exact ih h (Nat.le_of_succ_le_succ hmore)

/-- No amplifier takes more rounds than its stages have steps in all, and one. -/
lemma rounds_stages (a : Amplifier) (h : a.phases ≠ []) {count : Nat}
    (hcount : roundLimit a ≤ count) :
    rounds a.settings.feedback count (Scheduled.stages a) = some a.runScheduled := by
  obtain ⟨result, _, hrounds, _⟩ :=
    rounds_explained a.settings.feedback a.sound_stages a.total_stages_lt
  have hphases : a.phases.isEmpty = false := by simpa using h
  have hresult : a.runScheduled = result := by
    unfold runScheduled
    rw [hphases, hrounds]
    rfl
  rw [hresult]
  exact rounds_of_le hrounds hcount

end Scheduled

/-- Every run ends with one execution more than there are steps left, whatever its port has to
offer, and every amplifier whose stages take turns with one round more than its stages have steps in
all.  For a round behind which another one comes has executed an instruction, and a round that has
executed none leaves every stage halted, or at an input instruction without a value. -/
theorem runs_end :
    (∀ (σ : Type) (port : Port σ) (m : Machine) (s : σ) (executions : Nat),
        m.stepLimit.toNat - m.steps.toNat + 1 ≤ executions →
          m.runWithin port executions s = some (m.runWith port s)) ∧
      (∀ a : Amplifier, a.phases ≠ [] → ∀ count,
        a.phases.length * a.settings.machine.stepLimit.toNat + 1 ≤ count →
          Scheduled.rounds a.settings.feedback count (Scheduled.stages a) =
            some a.runScheduled) ∧
        (∀ (feedback : Bool) (stages stages' : List Stage),
          Scheduled.round feedback stages = .ok (stages', true) →
            Scheduled.executed stages < Scheduled.executed stages') ∧
          ∀ (feedback : Bool) (stages stages' : List Stage),
            Scheduled.round feedback stages = .ok (stages', false) → ∀ s ∈ stages', s.IsStuck := by
  refine ⟨?_, ?_, ?_, ?_⟩
  · intro σ port m s executions hexecutions
    exact Machine.runWithin_eq hexecutions
  · intro a hphases count hcount
    exact Scheduled.rounds_stages a hphases hcount
  · intro feedback stages stages' hround
    exact (Scheduled.counted_foldlM hround).executed_lt rfl
  · intro feedback stages stages' hround s hs
    have hcounted := Scheduled.counted_foldlM hround
    have hlength : stages'.length = stages.length := hcounted.length
    obtain ⟨i, hi, rfl⟩ := List.mem_iff_getElem.1 hs
    exact hcounted.isStuck rfl i (hlength ▸ hi) _ (List.getElem?_eq_getElem hi)

/-- A program that takes one input after another and never ends of itself. -/
def insatiable : Program := ⟨#[3, 5, 1106, 0, 0].map Word.ofCount⟩

/-- A port that always has input. -/
def ceaseless : Port Unit := ⟨fun s => (.ok (some 1), s), fun _ s => (.ok (), s)⟩

/-- A single stage, which gets its phase and the initial signal. -/
def lone : Amplifier := ⟨insatiable, [1], {}⟩

/-- The stage of `lone` when it has used up its input. -/
def unfed : Stage :=
  ⟨{ lone.stageMachine with
      tape := ⟨insatiable.cells.push 0, 16777216⟩
      status := .needsInput
      steps := 4 }, [], false⟩

/-- In front of a port that always has input the program is stopped by the step limit.  As a stage
it makes one round, and in the next one it is stuck. -/
theorem runs_end_insatiable :
    ((Machine.boot insatiable { stepLimit := 4 }).runWithin ceaseless 5 () =
        some ((Machine.boot insatiable { stepLimit := 4 }).runWith ceaseless ())) ∧
      Scheduled.rounds false 100000001 (Scheduled.stages lone) = some lone.runScheduled ∧
        Scheduled.executed (Scheduled.stages lone) < Scheduled.executed [unfed] ∧
          unfed.IsStuck := by
  obtain ⟨hruns, hrounds, hcounts, hstuck⟩ := runs_end
  have hfirst : Scheduled.round false (Scheduled.stages lone) = .ok ([unfed], true) := by
    decide +kernel
  have hsecond : Scheduled.round false [unfed] = .ok ([unfed], false) := by decide +kernel
  refine ⟨hruns _ _ _ _ 5 (by decide), hrounds lone (by decide) 100000001 (by decide), ?_, ?_⟩
  · exact hcounts false _ _ hfirst
  · exact hstuck false _ _ hsecond unfed (List.mem_singleton.2 rfl)

end Amplifier

end Intcode
