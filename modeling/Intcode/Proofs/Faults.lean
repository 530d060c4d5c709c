import Intcode.Proofs.Requests

/-!
# What faults leave behind

An instruction faults in one of seven ways, and in each of them it is laid down what becomes of the
machine and of the port (`Faults`; `faults_of_execute_eq` and `Faults.execute_eq` say that this is
so).  The cells that were read have been kept; apart from that the machine loses one queued value at
most, because an input instruction takes a value before it is known whether there is a place for it.

This decides whether a fault comes again when the machine is stepped once more.  If no queued value
was taken, the next step is the same as the one that faulted (`step_again`).  Otherwise the fault
comes again for each of the values that are still queued, and after them the machine does not fault
any more but waits for input (`faults_persist`).
-/

namespace Intcode

namespace Tape

lemma write_of_reach_error {t : Tape} {address : Word} {refusal : Refusal}
    (h : t.reach address = .error refusal) (value : Word) :
    t.write address value = (.error refusal, t) := by
  unfold write
  rw [h]

end Tape

namespace Machine

variable {σ : Type} {m m' : Machine} {port : Port σ} {s s' : σ} {fault : Fault} {refusal : Refusal}
  {i : Instruction} {target value : Word} {rest : List Word}

/-- A value that has no place is not stored, and nothing else happens. -/
lemma storing_of_reach_error (h : m.tape.reach target = .error refusal)
    (note : Option TraceEntry) (ip : UInt64) (value : Word) (s : σ) :
    m.storing note ip target value s = ⟨.error (refusal.fault m.ip), m, s⟩ := by
  unfold storing
  rw [Tape.write_of_reach_error h]

/-- A value is stored unless its place is out of reach. -/
lemma exists_reach_error_of_storing {note : Option TraceEntry} {ip : UInt64}
    (h : m.storing note ip target value s = ⟨.error fault, m', s'⟩) :
    ∃ refusal, m.tape.reach target = .error refusal ∧ refusal.fault m.ip = fault ∧ m' = m ∧
      s' = s := by
  cases hreach : m.tape.reach target with
  | error refusal =>
    rw [storing_of_reach_error hreach] at h
    cases h
    exact ⟨refusal, rfl, rfl, rfl, rfl⟩
  | ok place =>
    unfold storing Tape.write at h
    rw [hreach] at h
    cases h

/-! ## The ways to fault -/

/-- The ways in which an instruction faults, with the fault, the machine and the port that are
left. -/
inductive Faults (port : Port σ) (m : Machine) (s : σ) : Fault → Machine → σ → Prop
  /-- No step is left. -/
  | exhausted (hhalted : m.status ≠ .halted) (hlimit : m.stepLimit ≤ m.steps) :
    Faults port m s (.stepLimit m.stepLimit) m s
  /-- The instruction cannot be read, or what it asks for is out of range. -/
  | unreadable {fault : Fault} (hready : m.IsReady) (hrequest : m.request = .error fault) :
    Faults port m s fault m.prepared s
  /-- There is no place for a result. -/
  | unstored {i : Instruction} {target value : Word} {refusal : Refusal} (hready : m.IsReady)
    (hrequest : m.request = .ok (i, .store target value))
    (hreach : m.tape.reach target = .error refusal) :
    Faults port m s (refusal.fault m.ip) m.prepared s
  /-- There is no place for a value that was queued.  It is lost. -/
  | spilled {i : Instruction} {target value : Word} {rest : List Word} {refusal : Refusal}
    (hready : m.IsReady) (hrequest : m.request = .ok (i, .receive target))
    (hinputs : m.inputs = value :: rest) (hreach : m.tape.reach target = .error refusal) :
    Faults port m s (refusal.fault m.ip) { m.prepared with inputs := rest } s
  /-- There is no place for a value that came from the port.  It is lost. -/
  | dropped {i : Instruction} {target value : Word} {refusal : Refusal} {s' : σ}
    (hready : m.IsReady) (hrequest : m.request = .ok (i, .receive target))
    (hinputs : m.inputs = []) (hreceive : port.receive s = (.ok (some value), s'))
    (hreach : m.tape.reach target = .error refusal) :
    Faults port m s (refusal.fault m.ip) m.prepared s'
  /-- The port fails instead of giving a value. -/
  | unanswered {i : Instruction} {target : Word} {fault : Fault} {s' : σ} (hready : m.IsReady)
    (hrequest : m.request = .ok (i, .receive target)) (hinputs : m.inputs = [])
    (hreceive : port.receive s = (.error fault, s')) : Faults port m s fault m.prepared s'
  /-- The port fails instead of taking a value. -/
  | unsent {i : Instruction} {value : Word} {fault : Fault} {s' : σ} (hready : m.IsReady)
    (hrequest : m.request = .ok (i, .emit value))
    (hsend : port.send value s = (.error fault, s')) : Faults port m s fault m.prepared s'

/-- An instruction that faults does so in one of these ways. -/
lemma faults_of_execute_eq (h : m.execute port s = ⟨.error fault, m', s'⟩) :
    Faults port m s fault m' s' := by
  by_cases hhalted : m.status = .halted
  · unfold execute at h
    rw [if_pos hhalted] at h
    cases h
  by_cases hlimit : m.stepLimit ≤ m.steps
  · unfold execute at h
    rw [if_neg hhalted, if_pos hlimit] at h
    cases h
    exact .exhausted hhalted hlimit
  have hready : m.IsReady := ⟨hhalted, hlimit⟩
  rw [hready.execute_eq] at h
  cases hrequest : m.request with
  | error fault =>
    rw [hrequest] at h
    cases h
    exact .unreadable hready hrequest
  | ok request =>
    obtain ⟨i, action⟩ := request
    rw [hrequest] at h
    simp only [perform] at h
    cases action with
    | store target value =>
      obtain ⟨refusal, hreach, rfl, rfl, rfl⟩ := exists_reach_error_of_storing h
      rw [reach_prepared] at hreach
      exact .unstored hready hrequest hreach
    | receive target =>
      have hshown : m.prepared.inputs = m.inputs := rfl
      cases hinputs : m.inputs with
      | cons value rest =>
        simp only [hshown, hinputs] at h
        obtain ⟨refusal, hreach, rfl, rfl, rfl⟩ := exists_reach_error_of_storing h
        have hreach' : m.tape.reach target = .error refusal := by rw [← reach_prepared, ← hreach]
        exact .spilled hready hrequest hinputs hreach'
      | nil =>
        simp only [hshown, hinputs] at h
        rcases hreceive : port.receive s with ⟨fault | (_ | value), s''⟩
        · simp only [hreceive] at h
          cases h
          exact .unanswered hready hrequest hinputs hreceive
        · simp only [hreceive] at h
          cases h
        · simp only [hreceive] at h
          obtain ⟨refusal, hreach, rfl, rfl, rfl⟩ := exists_reach_error_of_storing h
          rw [reach_prepared] at hreach
          exact .dropped hready hrequest hinputs hreceive hreach
    | emit value =>
      rcases hsend : port.send value s with ⟨fault | sent, s''⟩
      · simp only [hsend] at h
        cases h
        exact .unsent hready hrequest hsend
      · simp only [hsend] at h
        cases h
    | jump destination => cases h
    | rebase base => cases h
    | halt => cases h

/-- Each of the ways is taken. -/
lemma Faults.execute_eq (h : Faults port m s fault m' s') :
    m.execute port s = ⟨.error fault, m', s'⟩ := by
  have hreached {target : Word} {refusal : Refusal}
      (hreach : m.tape.reach target = .error refusal) :
      m.prepared.tape.reach target = .error refusal := by
    rw [reach_prepared, hreach]
  cases h with
  | exhausted hhalted hlimit =>
    unfold execute
    rw [if_neg hhalted, if_pos hlimit]
  | unreadable hready hrequest => rw [hready.execute_eq, hrequest]
  | unstored hready hrequest hreach =>
    rw [hready.execute_eq, hrequest]
    exact storing_of_reach_error (hreached hreach) _ _ _ s
  | @spilled i target value rest refusal hready hrequest hinputs hreach =>
    have hshown : m.prepared.inputs = m.inputs := rfl
    rw [hready.execute_eq, hrequest]
    simp only [perform, hshown, hinputs]
    exact storing_of_reach_error (m := { m.prepared with inputs := rest }) (hreached hreach) _ _ _ s
  | dropped hready hrequest hinputs hreceive hreach =>
    have hshown : m.prepared.inputs = m.inputs := rfl
    rw [hready.execute_eq, hrequest]
    simp only [perform, hshown, hinputs, hreceive]
    exact storing_of_reach_error (hreached hreach) _ _ _ _
  | unanswered hready hrequest hinputs hreceive =>
    have hshown : m.prepared.inputs = m.inputs := rfl
    rw [hready.execute_eq, hrequest]
    simp only [perform, hshown, hinputs, hreceive]
  | unsent hready hrequest hsend =>
    rw [hready.execute_eq, hrequest]
    simp only [perform, hsend]

section Frame

variable (h : Faults port m s fault m' s')

include h

/-- A fault leaves the status as it was. -/
lemma Faults.status_eq : m'.status = m.status := by
  cases h <;> rfl

/-- After a fault the machine stands at the same request. -/
lemma Faults.request_eq : m'.request = m.request := by
  cases h with
  | exhausted hhalted hlimit => rfl
  | unreadable | unstored | spilled | dropped | unanswered | unsent => exact request_prepared m

/-- A fault takes at most the first value from the queue. -/
lemma Faults.inputs_suffix : m'.inputs <:+ m.inputs := by
  cases h with
  | spilled hready hrequest hinputs hreach =>
    rw [hinputs]
    exact List.suffix_cons _ _
  | exhausted | unreadable | unstored | dropped | unanswered | unsent => exact List.suffix_rfl

end Frame

/-! ## Faults over input -/

/-- The machine stands at an instruction that asks for input. -/
def AsksNext (m : Machine) : Prop := ∃ i target, m.request = .ok (i, .receive target)

/-- The machine stands at an instruction that asks for input, and there is no place for it. -/
def LacksPlace (m : Machine) (refusal : Refusal) : Prop :=
  ∃ i target, m.request = .ok (i, .receive target) ∧ m.tape.reach target = .error refusal

/-- An instruction that asks for input faults because no step is left, because of what its port has
given in place of a queued value, or because there is no place for a queued value. -/
lemma Faults.of_asksNext (h : Faults port m s fault m' s') (hnext : m.AsksNext) :
    m.stepLimit ≤ m.steps ∧ m' = m ∨
      m.inputs = [] ∧ m' = m.prepared ∧ (port.receive s).1 ≠ .ok none ∨
      ∃ refusal value rest, m.LacksPlace refusal ∧ m.inputs = value :: rest ∧
        m' = { m.prepared with inputs := rest } := by
  obtain ⟨i, target, hasks⟩ := hnext
  cases h with
  | exhausted hhalted hlimit => exact Or.inl ⟨hlimit, rfl⟩
  | unreadable hready hrequest =>
    rw [hasks] at hrequest
    cases hrequest
  | unstored hready hrequest hreach =>
    rw [hasks] at hrequest
    cases hrequest
  | spilled hready hrequest hinputs hreach =>
    exact Or.inr (Or.inr ⟨_, _, _, ⟨_, _, hrequest, hreach⟩, hinputs, rfl⟩)
  | dropped hready hrequest hinputs hreceive hreach =>
    exact Or.inr (Or.inl ⟨hinputs, rfl, by simp [hreceive]⟩)
  | unanswered hready hrequest hinputs hreceive =>
    exact Or.inr (Or.inl ⟨hinputs, rfl, by simp [hreceive]⟩)
  | unsent hready hrequest hsend =>
    rw [hasks] at hrequest
    cases hrequest

/-! ## Runs that fault -/

/-- A run on some input is a run with the input behind the queue. -/
lemma run_of_runWith_eq {values : List Word} {answer : Except Fault Stop} {b : Buffer}
    (h : (m.queue values).runWith Port.buffered ⟨[], #[]⟩ = ⟨answer, m', b⟩) :
    m.run values = (answer.map fun stop => ⟨b.outputs.toList, stop⟩, m') :=
  congrArg (fun turn : Turn Stop Buffer => (turn.answer.map fun stop =>
    (⟨turn.port.outputs.toList, stop⟩ : Outcome), turn.machine)) h

/-- A run that faults over its first instruction leaves what the fault leaves. -/
lemma Faults.run_eq {values : List Word} {b : Buffer}
    (h : Faults Port.buffered (m.queue values) ⟨[], #[]⟩ fault m' b) :
    m.run values = (.error fault, m') := by
  have hrun : (m.queue values).runWith Port.buffered ⟨[], #[]⟩ = ⟨.error fault, m', b⟩ := by
    rw [runWith_eq, h.execute_eq]
  exact run_of_runWith_eq hrun

/-- A run that faults does so over its first instruction, or it has used up a step before. -/
lemma faults_or_lt_of_runWith (h : m.runWith port s = ⟨.error fault, m', s'⟩) :
    Faults port m s fault m' s' ∨ m'.remaining < m.remaining := by
  rcases hexecute : m.execute port s with ⟨fault' | status, m₁, s₁⟩
  · rw [runWith_eq, hexecute] at h
    cases h
    exact Or.inl (faults_of_execute_eq hexecute)
  · have hspent (hhalted : status ≠ .halted) (hneeds : status ≠ .needsInput)
        (hrun : m₁.runWith port s₁ = ⟨.error fault, m', s'⟩) : m'.remaining < m.remaining := by
      have hless := remaining_lt_of_execute_eq hexecute hhalted hneeds
      rcases congrArg Turn.machine hrun ▸ spent_runWith port m₁ s₁ with ⟨_, hsame⟩ | hmore
      · rwa [hsame]
      · exact Nat.lt_trans hmore hless
    rw [runWith_eq, hexecute] at h
    cases status with
    | halted => cases h
    | needsInput => cases h
    | running => exact Or.inr (hspent (by simp) (by simp) h)
    | hasOutput value => exact Or.inr (hspent (by simp) (by simp) h)

/-! ## Stepping on -/

/-- The machine is about to take a queued value for which there is no place. -/
def Spills (m : Machine) : Prop := m.IsReady ∧ m.inputs ≠ [] ∧ ∃ refusal, m.LacksPlace refusal

/-- A step that faults without taking a queued value is made again in the same way. -/
lemma step_again (h : m.step.answer = .error fault) (hspills : ¬ m.Spills) :
    m.step.machine.step = m.step := by
  -- The machine is as it was, or it has kept the cells that it read.
  have hkept : m.step.machine = m ∨ m.IsReady ∧ m.step.machine = m.prepared := by
    rcases hstep : m.step with ⟨answer, m', s'⟩
    rw [hstep] at h
    subst h
    cases faults_of_execute_eq hstep with
    | exhausted hhalted hlimit => exact Or.inl rfl
    | unreadable hready hrequest => exact Or.inr ⟨hready, rfl⟩
    | unstored hready hrequest hreach => exact Or.inr ⟨hready, rfl⟩
    | spilled hready hrequest hinputs hreach =>
      have hqueued : m.inputs ≠ [] := by
        rw [hinputs]
        exact List.cons_ne_nil _ _
      exact absurd ⟨hready, hqueued, _, _, _, hrequest, hreach⟩ hspills
    -- In front of nothing an input is neither given nor refused, and an output is taken.
    | dropped hready hrequest hinputs hreceive hreach => cases hreceive
    | unanswered hready hrequest hinputs hreceive => cases hreceive
    | unsent hready hrequest hsend => cases hsend
  rcases hkept with hsame | ⟨hready, hprepared⟩
  · rw [hsame]
  · rw [hprepared]
    exact hready.execute_prepared Port.detached ()

/-- The machine after a number of steps and nothing else. -/
def afterSteps (m : Machine) : Nat → Machine
  | 0 => m
  | n + 1 => m.step.machine.afterSteps n

lemma step_afterSteps (h : m.step.machine.step = m.step) (n : Nat) :
    (m.afterSteps n).step = m.step := by
  induction n generalizing m with
  | zero => rfl
  | succ n ih =>
    have hagain : m.step.machine.step.machine.step = m.step.machine.step := by rw [h, h]
    exact (ih hagain).trans h

/-- A step of a machine without a place for its input takes a queued value and faults, or finds none
and waits.  There is no place for the input afterwards either. -/
lemma LacksPlace.step_spec (h : m.LacksPlace refusal) (hready : m.IsReady) :
    m.step.answer =
        (if m.inputs = [] then .ok .needsInput else .error (refusal.fault m.ip)) ∧
      m.step.machine.inputs = m.inputs.tail ∧ m.step.machine.ip = m.ip ∧
      m.step.machine.IsReady ∧ m.step.machine.LacksPlace refusal := by
  obtain ⟨i, target, hrequest, hreach⟩ := h
  have hrequest' : m.prepared.request = .ok (i, .receive target) := by
    rw [request_prepared, hrequest]
  have hreach' : m.prepared.tape.reach target = .error refusal := by
    rw [reach_prepared, hreach]
  cases hinputs : m.inputs with
  | nil =>
    have hstep : m.step =
        ⟨.ok .needsInput, { m.prepared with status := .needsInput }, ()⟩ := by
      have hshown : m.prepared.inputs = [] := hinputs
      unfold step
      rw [hready.execute_eq, hrequest]
      simp only [perform, hshown]
      rfl
    rw [hstep]
    refine ⟨rfl, hinputs, rfl, ⟨by simp, hready.not_exhausted⟩, i, target, hrequest', hreach'⟩
  | cons value rest =>
    have hstep : m.step =
        ⟨.error (refusal.fault m.ip), { m.prepared with inputs := rest }, ()⟩ :=
      (Faults.spilled hready hrequest hinputs hreach).execute_eq
    rw [hstep]
    exact ⟨rfl, rfl, rfl, ⟨hready.not_halted, hready.not_exhausted⟩, i, target, hrequest', hreach'⟩

/-- A machine without a place for its input loses the queued values one by one, and then waits. -/
lemma LacksPlace.answer_afterSteps (h : m.LacksPlace refusal) (hready : m.IsReady) (n : Nat) :
    (m.afterSteps n).step.answer =
      if n < m.inputs.length then .error (refusal.fault m.ip) else .ok .needsInput := by
  induction n generalizing m with
  | zero =>
    rw [afterSteps, (h.step_spec hready).1]
    cases m.inputs with
    | nil => rfl
    | cons value rest => rfl
  | succ n ih =>
    obtain ⟨_, hinputs, hip, hready', h'⟩ := h.step_spec hready
    rw [afterSteps, ih h' hready', hinputs, hip, List.length_tail]
    congr 1
    exact propext (by omega)

/-- A fault that a step has comes again with every further step, unless the machine was about to
take a queued value for which there is no place.  In that case it comes again for each of the other
queued values, and after them the machine waits for input. -/
theorem faults_persist (m : Machine) (fault : Fault) (h : m.step.answer = .error fault) :
    (¬ m.Spills → ∀ n, (m.afterSteps n).step.answer = .error fault) ∧
      (m.Spills → ∀ n, (m.afterSteps n).step.answer =
        if n < m.inputs.length then .error fault else .ok .needsInput) := by
  constructor
  · intro hspills n
    rw [step_afterSteps (step_again h hspills), h]
  · rintro ⟨hready, hqueued, refusal, hlacks⟩ n
    have hfault : fault = refusal.fault m.ip := by
      have hanswer := (hlacks.step_spec hready).1
      rw [if_neg hqueued, h] at hanswer
      exact Except.error.inj hanswer
    rw [hfault]
    exact hlacks.answer_afterSteps hready n

/-- A program that takes an input value to a negative address. -/
def cornering : Program := ⟨#[Word.ofCount 3, .minusOne]⟩

/-- A machine that is about to take the first of two queued values to a negative address. -/
def spilling : Machine := { boot cornering {} with inputs := [1, 1] }

/-- `spilling` faults, once more for the second value, and then it waits for input. -/
theorem faults_persist_spilling :
    spilling.step.answer = .error (.negativeAddress .minusOne 0) ∧ spilling.Spills ∧
      (spilling.afterSteps 1).step.answer = .error (.negativeAddress .minusOne 0) ∧
      (spilling.afterSteps 2).step.answer = .ok .needsInput := by
  have hfault : spilling.step.answer = .error (.negativeAddress .minusOne 0) := rfl
  have hspills : spilling.Spills :=
    ⟨⟨by decide, by decide⟩, List.cons_ne_nil _ _, .negative .minusOne, _, .minusOne, rfl, rfl⟩
  have hpersist := (faults_persist spilling _ hfault).2 hspills
  exact ⟨hfault, hspills, hpersist 1, hpersist 2⟩

/-- Not every fault comes again. -/
theorem not_faults_persist :
    ¬ ∀ (m : Machine) (fault : Fault), m.step.answer = .error fault →
      ∀ n, (m.afterSteps n).step.answer = .error fault := by
  intro h
  have hwaits : (spilling.afterSteps 2).step.answer = .ok .needsInput := rfl
  have hfault := h spilling _ rfl 2
  rw [hwaits] at hfault
  cases hfault

end Machine

end Intcode
