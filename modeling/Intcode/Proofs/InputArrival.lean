import Intcode.Machine.Run
import Intcode.Proofs.StepRefinement

/-!
# Input may arrive in pieces

A machine can be fed and driven in many ways: values are queued one by one, single instructions are
executed, and runs bring input of their own.  This module proves that the way does not matter
(`session_eq_run`): calls that go well and end with a run emit the same values and leave the same
machine behind, kept cells included, as one run that is given all the input at once; and if that
run faults, the calls do not go well but fail with its fault.

Everything is stated about what a machine concludes with the input that it has queued
(`Machine.conclude`).  Two facts carry the proof: an instruction that is completed does the same
with more input behind the queue (`attempt_queue`), and an instruction that is suspended leaves
nothing behind that its second execution could tell (`attempt_queue_of_needsInput`).
-/

namespace Intcode

/-! ## Accesses that are made again -/

namespace Access

/-- An access that is made again on the tape that it has left gives the same answer and leaves the
tape as it is. -/
lemma Yields.run_again {α : Type} {x : Access α} {r : Except Fault α} {t : Tape}
    (hx : x.Yields t.endless r) : x.run (x.run t).2 = ((x.run t).1, (x.run t).2) := by
  obtain ⟨n, hn⟩ := hx
  rw [hn t rfl]
  have hagain := hn (t.pad n) (t.endless_pad n)
  rw [Tape.pad_pad, Nat.max_self] at hagain
  exact hagain

/-- Preparing an instruction again, after the cells that it reads have been kept, gives the same. -/
lemma prepare_again (m : Machine) :
    (prepare m.ip m.relativeBase).run ((prepare m.ip m.relativeBase).run m.tape).2 =
      (prepare m.ip m.relativeBase).run m.tape := by
  obtain ⟨r, hyields, _⟩ := yields_prepare m.endless
  exact Yields.run_again hyields

end Access

/-- The values that an instruction with a given answer has emitted. -/
def Status.emitted : Status → List Word
  | hasOutput value => [value]
  | _ => []

/-- The answer and the machine of a turn that does not fault. -/
def Turn.completed {α σ : Type} (turn : Turn α σ) : Except Fault (α × Machine) :=
  turn.answer.map fun answer => (answer, turn.machine)

lemma Turn.completed_of_answer {α σ : Type} {turn : Turn α σ} {answer : α}
    (h : turn.answer = .ok answer) : turn.completed = .ok (answer, turn.machine) := by
  unfold completed
  rw [h]
  rfl

namespace Machine

/-! ## Executing an instruction again -/

/-- The machine with the cells kept that its next instruction reads. -/
def prepared (m : Machine) : Machine :=
  { m with tape := ((Access.prepare m.ip m.relativeBase).run m.tape).2 }

/-- The next instruction and what it asks for. -/
def request (m : Machine) : Except Fault (Instruction × Action) :=
  ((Access.prepare m.ip m.relativeBase).run m.tape).1

/-- The instruction at which the machine stands, executed with no input but the queue: the status
and the machine afterwards, if the instruction does not fault. -/
def attempt (m : Machine) : Except Fault (Status × Machine) := m.step.completed

variable {note : Option TraceEntry} {ip : UInt64} {target value : Word} {i : Instruction}
  {action : Action} {status : Status} {m m' : Machine} {s : Unit}

lemma attempt_eq (m : Machine) :
    m.attempt =
      if m.status = .halted then .ok (.halted, m)
      else if m.stepLimit ≤ m.steps then .error (.stepLimit m.stepLimit)
      else m.request >>= fun (i, action) =>
        (m.prepared.perform Port.detached i action ()).completed := by
  unfold attempt step execute prepared request
  by_cases hhalted : m.status = .halted
  · rw [if_pos hhalted, if_pos hhalted]
    rfl
  · rw [if_neg hhalted, if_neg hhalted]
    by_cases hlimit : m.stepLimit ≤ m.steps
    · rw [if_pos hlimit, if_pos hlimit]
      rfl
    · rw [if_neg hlimit, if_neg hlimit]
      rcases (Access.prepare m.ip m.relativeBase).run m.tape with ⟨fault | prepared, tape⟩
      · rfl
      · rfl

lemma request_prepared (m : Machine) : m.prepared.request = m.request :=
  congrArg Prod.fst (Access.prepare_again m)

lemma prepared_prepared (m : Machine) : m.prepared.prepared = m.prepared :=
  congrArg (fun run => { m with tape := run.2 }) (Access.prepare_again m)

/-- Keeping the cells beforehand that an instruction reads makes no difference. -/
lemma attempt_prepared (hm : m.status ≠ .halted) : m.prepared.attempt = m.attempt := by
  have hm' : m.prepared.status ≠ .halted := hm
  rw [attempt_eq, attempt_eq, request_prepared, prepared_prepared, if_neg hm, if_neg hm']
  rfl

lemma completed_storing_status :
    ({ m with status := status }.storing note ip target value s).completed =
      (m.storing note ip target value s).completed := by
  unfold storing
  rcases m.tape.write target value with ⟨refusal | written, tape⟩
  · rfl
  · rfl

lemma completed_perform_status (status : Status) :
    ({ m with status := status }.perform Port.detached i action s).completed =
      (m.perform Port.detached i action s).completed := by
  cases action with
  | store target value => exact completed_storing_status
  | receive target =>
    unfold perform
    cases hinputs : m.inputs with
    | nil => rfl
    | cons value rest => exact completed_storing_status (m := { m with inputs := rest })
  | emit value => rfl
  | jump destination => rfl
  | rebase base => rfl
  | halt => rfl

/-- A machine that has not halted goes on from whatever status it has. -/
lemma attempt_status (hm : m.status ≠ .halted) (hstatus : status ≠ .halted) :
    { m with status := status }.attempt = m.attempt := by
  rw [attempt_eq, attempt_eq, if_neg hm, if_neg hstatus]
  change (if m.stepLimit ≤ m.steps then _ else m.request >>= _) = _
  simp only [← completed_perform_status (m := m.prepared) status]
  rfl

lemma completed_storing_ne_needsInput :
    (m.storing note ip target value s).completed ≠ .ok (.needsInput, m') := by
  unfold storing
  rcases m.tape.write target value with ⟨refusal | written, tape⟩
  · intro h
    cases h
  · intro h
    cases h

lemma eq_of_completed_perform_needsInput
    (h : (m.perform Port.detached i action s).completed = .ok (.needsInput, m')) :
    m' = { m with status := .needsInput } := by
  cases action with
  | store target value => exact absurd h completed_storing_ne_needsInput
  | receive target =>
    unfold perform at h
    cases hinputs : m.inputs with
    | nil =>
      simp only [hinputs] at h
      cases h
      rw [← hinputs]
      rfl
    | cons value rest =>
      simp only [hinputs] at h
      exact absurd h completed_storing_ne_needsInput
  | emit value => cases h
  | jump destination => cases h
  | rebase base => cases h
  | halt => cases h

/-- The status that an instruction leaves behind is its answer. -/
lemma status_of_attempt (h : m.attempt = .ok (status, m')) : m'.status = status := by
  unfold attempt Turn.completed at h
  cases hanswer : m.step.answer with
  | error fault =>
    rw [hanswer] at h
    cases h
  | ok answer =>
    rw [hanswer] at h
    cases h
    exact status_execute hanswer

/-- A suspended machine has kept the cells that its instruction reads, and nothing else. -/
lemma eq_prepared_of_needsInput (h : m.attempt = .ok (.needsInput, m')) :
    m.status ≠ .halted ∧ m' = { m.prepared with status := .needsInput } := by
  rw [attempt_eq] at h
  split at h
  · cases h
  · next hhalted =>
    refine ⟨hhalted, ?_⟩
    split at h
    · cases h
    · cases hrequest : m.request with
      | error fault =>
        rw [hrequest] at h
        cases h
      | ok request =>
        rw [hrequest] at h
        exact eq_of_completed_perform_needsInput h

/-! ## More values behind the queue -/

/-- The machine with more values behind its queue. -/
def queue (values : List Word) (m : Machine) : Machine := { m with inputs := m.inputs ++ values }

@[simp] lemma queue_nil (m : Machine) : m.queue [] = m := by
  unfold queue
  rw [List.append_nil]

lemma inputs_queue_of_nil (h : m.inputs = []) (values : List Word) :
    (m.queue values).inputs = values := by
  unfold queue
  rw [h, List.nil_append]

/-- Queuing values and then more is queuing all of them. -/
lemma queue_queue (values more : List Word) (m : Machine) :
    (m.queue values).queue more = m.queue (values ++ more) := by
  unfold queue
  rw [List.append_assoc]

lemma completed_storing_queue (values : List Word) :
    ((m.queue values).storing note ip target value s).completed =
      (m.storing note ip target value s).completed.map (Prod.map id (queue values)) := by
  have htape : (m.queue values).tape = m.tape := rfl
  unfold storing
  rw [htape]
  rcases m.tape.write target value with ⟨refusal | written, tape⟩
  · rfl
  · rfl

lemma completed_perform_queue (values : List Word)
    (h : (m.perform Port.detached i action s).answer ≠ .ok .needsInput) :
    ((m.queue values).perform Port.detached i action s).completed =
      (m.perform Port.detached i action s).completed.map (Prod.map id (queue values)) := by
  cases action with
  | store target value => exact completed_storing_queue values
  | receive target =>
    unfold perform at h ⊢
    cases hinputs : m.inputs with
    | nil =>
      simp only [hinputs] at h
      exact absurd rfl h
    | cons value rest =>
      have hqueue : (m.queue values).inputs = value :: (rest ++ values) := by
        unfold queue
        rw [hinputs]
        rfl
      simp only [hqueue]
      exact completed_storing_queue (m := { m with inputs := rest }) values
  | emit value => rfl
  | jump destination => rfl
  | rebase base => rfl
  | halt => rfl

/-- An instruction that is not suspended does the same with more values behind the queue. -/
lemma attempt_queue (values : List Word) (h : ∀ m', m.attempt ≠ .ok (.needsInput, m')) :
    (m.queue values).attempt = m.attempt.map (Prod.map id (queue values)) := by
  rw [attempt_eq] at h
  rw [attempt_eq, attempt_eq]
  change (if m.status = .halted then _ else if m.stepLimit ≤ m.steps then _
    else m.request >>= _) = _
  by_cases hhalted : m.status = .halted
  · rw [if_pos hhalted, if_pos hhalted]
    rfl
  · rw [if_neg hhalted] at h ⊢
    rw [if_neg hhalted]
    by_cases hlimit : m.stepLimit ≤ m.steps
    · rw [if_pos hlimit, if_pos hlimit]
      rfl
    · rw [if_neg hlimit] at h ⊢
      rw [if_neg hlimit]
      cases hrequest : m.request with
      | error fault => rfl
      | ok request =>
        rw [hrequest] at h
        refine completed_perform_queue (m := m.prepared) values fun hanswer => ?_
        exact h _ (Turn.completed_of_answer hanswer)

/-- An instruction that was suspended does the same as if it were executed for the first time. -/
lemma attempt_queue_of_needsInput (values : List Word) (h : m.attempt = .ok (.needsInput, m')) :
    (m'.queue values).attempt = (m.queue values).attempt := by
  obtain ⟨hhalted, rfl⟩ := eq_prepared_of_needsInput h
  have hneeds : Status.needsInput ≠ .halted := by simp
  have hstatus := attempt_status (m := (m.queue values).prepared) hhalted hneeds
  exact hstatus.trans (attempt_prepared (m := m.queue values) hhalted)

/-! ## Runs to the end of the input -/

/-- The turn that a machine makes in front of a buffer without input, given the turn that it makes
in front of nothing. -/
def buffered (outputs : Array Word) (turn : Turn Status Unit) : Turn Status Buffer :=
  match turn.answer with
  | .ok (.hasOutput value) => ⟨turn.answer, turn.machine, ⟨[], outputs.push value⟩⟩
  | _ => ⟨turn.answer, turn.machine, ⟨[], outputs⟩⟩

lemma storing_buffered (outputs : Array Word) :
    m.storing note ip target value ⟨[], outputs⟩ =
      buffered outputs (m.storing note ip target value ()) := by
  unfold storing
  rcases m.tape.write target value with ⟨refusal | written, tape⟩
  · rfl
  · rfl

lemma perform_buffered (outputs : Array Word) :
    m.perform Port.buffered i action ⟨[], outputs⟩ =
      buffered outputs (m.perform Port.detached i action ()) := by
  cases action with
  | store target value => exact storing_buffered outputs
  | receive target =>
    unfold perform
    cases hinputs : m.inputs with
    | nil => rfl
    | cons value rest => exact storing_buffered outputs
  | emit value => rfl
  | jump destination => rfl
  | rebase base => rfl
  | halt => rfl

/-- A buffer without input only collects what is emitted. -/
lemma execute_buffered (m : Machine) (outputs : Array Word) :
    m.execute Port.buffered ⟨[], outputs⟩ = buffered outputs m.step := by
  unfold step execute
  by_cases hhalted : m.status = .halted
  · rw [if_pos hhalted, if_pos hhalted]
    rfl
  · rw [if_neg hhalted, if_neg hhalted]
    by_cases hlimit : m.stepLimit ≤ m.steps
    · rw [if_pos hlimit, if_pos hlimit]
      rfl
    · rw [if_neg hlimit, if_neg hlimit]
      rcases (Access.prepare m.ip m.relativeBase).run m.tape with ⟨fault | prepared, tape⟩
      · rfl
      · exact perform_buffered outputs

/-- A run with no input but the queue, behind values that have been emitted before. -/
def concludeWith (outputs : Array Word) (m : Machine) : Except Fault (Outcome × Machine) :=
  let turn := m.runWith Port.buffered ⟨[], outputs⟩
  turn.answer.map fun stop => (⟨turn.port.outputs.toList, stop⟩, turn.machine)

/-- What the machine comes to with no input but the queue. -/
def conclude (m : Machine) : Except Fault (Outcome × Machine) := m.concludeWith #[]

/-- A run is what the machine comes to with the input of the run behind its queue. -/
lemma conclude_queue_eq_run (values : List Word) (m : Machine) :
    (m.queue values).conclude =
      (m.run values).1.map fun outcome => (outcome, (m.run values).2) := by
  unfold conclude concludeWith run queue
  rcases runWith Port.buffered { m with inputs := m.inputs ++ values } ⟨[], #[]⟩ with
    ⟨fault | stop, machine, port⟩
  · rfl
  · rfl

/-- A run goes on from what its first instruction comes to. -/
lemma concludeWith_eq (outputs : Array Word) (m : Machine) :
    m.concludeWith outputs = m.attempt >>= fun (status, m') =>
      match status with
      | .halted => .ok (⟨outputs.toList, .halted⟩, m')
      | .needsInput => .ok (⟨outputs.toList, .awaitingInput⟩, m')
      | .running => m'.concludeWith outputs
      | .hasOutput value => m'.concludeWith (outputs.push value) := by
  have hexecute := m.execute_buffered outputs
  unfold attempt Turn.completed
  unfold concludeWith
  rw [runWith_eq, hexecute]
  rcases m.step with ⟨fault | status, machine, port⟩
  · rfl
  · cases status with
    | running => rfl
    | needsInput => rfl
    | hasOutput value => rfl
    | halted => rfl

/-- What has been emitted before stands in front of what a run emits. -/
def after (values : List Word) (result : Outcome × Machine) : Outcome × Machine :=
  (⟨values ++ result.1.outputs, result.1.stop⟩, result.2)

lemma map_after_nil (r : Except Fault (Outcome × Machine)) : r.map (after []) = r := by
  cases r with
  | error fault => rfl
  | ok result => rfl

lemma map_after_map_after (values more : List Word) (r : Except Fault (Outcome × Machine)) :
    (r.map (after more)).map (after values) = r.map (after (values ++ more)) := by
  cases r with
  | error fault => rfl
  | ok result =>
    change Except.ok (after values (after more result)) = .ok (after (values ++ more) result)
    unfold after
    rw [List.append_assoc]

/-- An instruction that goes on brings the machine nearer to its end. -/
lemma remaining_lt_of_attempt (h : m.attempt = .ok (status, m')) (hhalted : status ≠ .halted)
    (hneeds : status ≠ .needsInput) : m'.remaining < m.remaining := by
  unfold attempt at h
  rcases hstep : m.step with ⟨fault | answer, machine, port⟩
  · rw [hstep] at h
    cases h
  · rw [hstep] at h
    cases h
    exact remaining_lt_of_execute_eq hstep hhalted hneeds

/-- What has been emitted before does not change what a run comes to. -/
lemma concludeWith_eq_map_after (outputs : Array Word) (m : Machine) :
    m.concludeWith outputs = m.conclude.map (after outputs.toList) := by
  induction hn : m.remaining using Nat.strongRecOn generalizing m outputs with
  | ind n ih =>
    unfold conclude
    rw [concludeWith_eq, concludeWith_eq]
    rcases hattempt : m.attempt with fault | ⟨status, m'⟩
    · rfl
    · have hless := remaining_lt_of_attempt hattempt
      cases status with
      | running => exact ih _ (hn ▸ hless (by simp) (by simp)) outputs m' rfl
      | needsInput =>
        change Except.ok _ = Except.ok (after outputs.toList (⟨[], .awaitingInput⟩, m'))
        unfold after
        rw [List.append_nil]
      | hasOutput value =>
        have ih' := fun outputs => ih _ (hn ▸ hless (by simp) (by simp)) outputs m' rfl
        change m'.concludeWith (outputs.push value) =
          (m'.concludeWith (#[].push value)).map (after outputs.toList)
        rw [ih' (outputs.push value), ih' (#[].push value), map_after_map_after]
        simp
      | halted =>
        change Except.ok _ = Except.ok (after outputs.toList (⟨[], .halted⟩, m'))
        unfold after
        rw [List.append_nil]

/-- What follows upon an instruction with a given answer. -/
def follow : Status × Machine → Except Fault (Outcome × Machine)
  | (.halted, m) => .ok (⟨[], .halted⟩, m)
  | (.needsInput, m) => .ok (⟨[], .awaitingInput⟩, m)
  | (.running, m) => m.conclude
  | (.hasOutput value, m) => m.conclude.map (after [value])

lemma conclude_eq (m : Machine) : m.conclude = m.attempt >>= follow := by
  unfold conclude
  rw [concludeWith_eq]
  rcases hattempt : m.attempt with fault | ⟨status, m'⟩
  · rfl
  · cases status with
    | running => rfl
    | needsInput => rfl
    | hasOutput value => exact concludeWith_eq_map_after (#[].push value) m'
    | halted => rfl

/-- A machine that has halted comes to nothing more. -/
lemma conclude_of_halted (h : m.status = .halted) : m.conclude = .ok (⟨[], .halted⟩, m) := by
  rw [conclude_eq, attempt_eq, if_pos h]
  rfl

/-- A machine that has not halted comes to the same from whatever status it has. -/
lemma conclude_status (hm : m.status ≠ .halted) (hstatus : status ≠ .halted) :
    { m with status := status }.conclude = m.conclude := by
  rw [conclude_eq, conclude_eq, attempt_status hm hstatus]

/-- To execute an instruction and go on with more input is to go on with more input behind the
queue. -/
lemma conclude_queue_of_attempt (values : List Word) (m : Machine) :
    (m.queue values).conclude = m.attempt >>= fun (status, m') =>
      (m'.queue values).conclude.map (after status.emitted) := by
  rw [conclude_eq]
  rcases hattempt : m.attempt with fault | ⟨status, m'⟩
  · rw [attempt_queue values (by simp [hattempt]), hattempt]
    rfl
  · change _ = (m'.queue values).conclude.map (after status.emitted)
    cases status with
    | running =>
      rw [attempt_queue values (by simp [hattempt]), hattempt]
      exact (map_after_nil _).symm
    | needsInput =>
      rw [← attempt_queue_of_needsInput values hattempt, ← conclude_eq]
      exact (map_after_nil _).symm
    | hasOutput value =>
      rw [attempt_queue values (by simp [hattempt]), hattempt]
      rfl
    | halted =>
      have hhalted : m'.status = .halted := status_of_attempt hattempt
      rw [attempt_queue values (by simp [hattempt]), hattempt,
        conclude_of_halted (m := m'.queue values) hhalted]
      rfl

/-- To run and go on with more input is to run with more input behind the queue. -/
lemma conclude_queue (values : List Word) (m : Machine) :
    (m.queue values).conclude = m.conclude >>= fun (outcome, m') =>
      (m'.queue values).conclude.map (after outcome.outputs) := by
  induction hn : m.remaining using Nat.strongRecOn generalizing m with
  | ind n ih =>
    rw [conclude_queue_of_attempt, conclude_eq m]
    rcases hattempt : m.attempt with fault | ⟨status, m'⟩
    · rfl
    · have hless := remaining_lt_of_attempt hattempt
      cases status with
      | running => exact (map_after_nil _).trans (ih _ (hn ▸ hless (by simp) (by simp)) m' rfl)
      | needsInput => rfl
      | hasOutput value =>
        change (m'.queue values).conclude.map (after [value]) =
          m'.conclude.map (after [value]) >>= _
        rw [ih _ (hn ▸ hless (by simp) (by simp)) m' rfl]
        rcases m'.conclude with fault | ⟨outcome, m''⟩
        · rfl
        · exact map_after_map_after [value] outcome.outputs (m''.queue values).conclude
      | halted => rfl

lemma run_of_conclude_ok {m m' : Machine} {input : List Word} {outcome : Outcome}
    (h : (m.queue input).conclude = .ok (outcome, m')) : m.run input = (.ok outcome, m') := by
  rw [conclude_queue_eq_run] at h
  rcases hrun : m.run input with ⟨fault | outcome', machine⟩
  · rw [hrun] at h
    cases h
  · rw [hrun] at h
    cases h
    rfl

/-- To run on all of some input is to run on a part of it and to go on with the rest. -/
lemma conclude_append (m : Machine) (input more : List Word) :
    (m.queue (input ++ more)).conclude = (m.queue input).conclude >>= fun (outcome, m') =>
      (m'.queue more).conclude.map (after outcome.outputs) := by
  rw [← queue_queue, conclude_queue]

/-- To run on some input and then on more of it is to run on all of it. -/
lemma run_append {m m' m'' : Machine} {input more : List Word} {outcome outcome' : Outcome}
    (h : m.run input = (.ok outcome, m')) (h' : m'.run more = (.ok outcome', m'')) :
    m.run (input ++ more) = (.ok ⟨outcome.outputs ++ outcome'.outputs, outcome'.stop⟩, m'') := by
  apply run_of_conclude_ok
  rw [conclude_append, conclude_queue_eq_run, h]
  change (m'.queue more).conclude.map (after outcome.outputs) = _
  rw [conclude_queue_eq_run, h']
  rfl

end Machine

/-! ## Calls -/

open Machine

/-- The ways to feed and drive a machine. -/
inductive Call where
  /-- A value is queued. -/
  | provide (value : Word)
  /-- One instruction is executed. -/
  | step
  /-- Some values are queued and the machine runs until it stops. -/
  | run (chunk : List Word)

namespace Call

/-- The input that a call brings. -/
def inputs : Call → List Word
  | provide value => [value]
  | step => []
  | run chunk => chunk

/-- What a call emits and the machine after it, unless it fails. -/
def perform (m : Machine) : Call → Except Fault (List Word × Machine)
  | provide value => (m.provide value).map fun m' => ([], m')
  | step => m.step.completed.map (Prod.map Status.emitted id)
  | run chunk => (m.run chunk).1.map fun outcome => (outcome.outputs, (m.run chunk).2)

/-- What calls emit one after another and the machine after them; the first one that fails ends
them. -/
def performAll (m : Machine) : List Call → Except Fault (List Word × Machine)
  | [] => .ok ([], m)
  | call :: calls => do
    let (emitted, m') ← call.perform m
    let (more, m'') ← performAll m' calls
    return (emitted ++ more, m'')

/-- What calls and a run at their end come to. -/
def session (calls : List Call) (chunk : List Word) (m : Machine) :
    Except Fault (Outcome × Machine) := do
  let (emitted, m') ← performAll m calls
  let outcome ← (m'.run chunk).1
  return (⟨emitted ++ outcome.outputs, outcome.stop⟩, (m'.run chunk).2)

/-- A call emits a part of what the machine comes to with the input of the call and more input
behind it, and leaves the rest to be emitted.  Only a machine that has halted refuses input. -/
lemma conclude_perform (call : Call) (rest : List Word) (m : Machine)
    (h : ∀ value, call = .provide value → m.status ≠ .halted) :
    (m.queue (call.inputs ++ rest)).conclude =
      call.perform m >>= fun (emitted, m') => (m'.queue rest).conclude.map (after emitted) := by
  cases call with
  | provide value =>
    have hm : m.status ≠ .halted := h value rfl
    have hstatus : (if m.status = .needsInput then Status.running else m.status) ≠ .halted := by
      split
      · simp
      · exact hm
    have hprovide : m.provide value = .ok { m.queue [value] with
        status := if m.status = .needsInput then .running else m.status } := by
      unfold Machine.provide provideAll
      rw [if_neg hm]
      rfl
    have hqueue := conclude_status (m := (m.queue [value]).queue rest) hm hstatus
    change (m.queue ([value] ++ rest)).conclude = (m.provide value).map (fun m' => ([], m')) >>= _
    rw [← queue_queue, ← hqueue, hprovide]
    exact (map_after_nil _).symm
  | step =>
    refine (conclude_queue_of_attempt rest m).trans ?_
    change m.step.completed >>= _ = m.step.completed.map (Prod.map Status.emitted id) >>= _
    rcases m.step.completed with fault | ⟨status, m'⟩
    · rfl
    · rfl
  | run chunk =>
    have hrun := conclude_queue_eq_run chunk m
    change (m.queue (chunk ++ rest)).conclude = _
    rw [← queue_queue, conclude_queue, hrun]
    change _ = (m.run chunk).1.map (fun outcome => (outcome.outputs, (m.run chunk).2)) >>= _
    rcases (m.run chunk).1 with fault | outcome
    · rfl
    · rfl

/-- The input that calls bring, in order. -/
def inputsOf (calls : List Call) : List Word := calls.flatMap inputs

/-- Calls emit a part of what the machine comes to with the input of the calls and more input behind
it, and leave the rest to be emitted, unless they bring input to a machine that has halted. -/
lemma conclude_performAll (calls : List Call) (rest : List Word) (m : Machine) :
    (m.queue (inputsOf calls ++ rest)).conclude =
        (performAll m calls >>= fun (emitted, m') =>
          (m'.queue rest).conclude.map (after emitted)) ∨
      ∃ result, (m.queue (inputsOf calls ++ rest)).conclude = .ok result ∧
        performAll m calls = .error .halted := by
  induction calls generalizing m with
  | nil => exact Or.inl (map_after_nil _).symm
  | cons call calls ih =>
    have hinputs : inputsOf (call :: calls) ++ rest = call.inputs ++ (inputsOf calls ++ rest) := by
      unfold inputsOf
      rw [List.flatMap_cons, List.append_assoc]
    rw [hinputs, performAll]
    by_cases hrefused : ∃ value, call = .provide value ∧ m.status = .halted
    · obtain ⟨value, rfl, hhalted⟩ := hrefused
      refine Or.inr ⟨_, conclude_of_halted hhalted, ?_⟩
      change ((m.provide value).map fun m' => ([], m')) >>= _ = _
      unfold Machine.provide provideAll
      rw [if_pos hhalted]
      rfl
    · rw [conclude_perform call (inputsOf calls ++ rest) m
        fun value hcall hhalted => hrefused ⟨value, hcall, hhalted⟩]
      rcases call.perform m with fault | ⟨emitted, m'⟩
      · exact Or.inl rfl
      · rcases ih m' with hequal | ⟨result, hresult, hhalted⟩
        · left
          change (m'.queue (inputsOf calls ++ rest)).conclude.map (after emitted) = _
          rw [hequal]
          change _ = (performAll m' calls >>= fun (more, m'') => pure (emitted ++ more, m'')) >>= _
          rcases performAll m' calls with fault | ⟨more, m''⟩
          · rfl
          · exact map_after_map_after emitted more (m''.queue rest).conclude
        · right
          refine ⟨after emitted result, ?_, ?_⟩
          · change (m'.queue (inputsOf calls ++ rest)).conclude.map (after emitted) = _
            rw [hresult]
            rfl
          · change (performAll m' calls >>= fun (more, m'') => pure (emitted ++ more, m'')) = _
            rw [hhalted]
            rfl

/-- Calls and a run come to what the machine comes to after the calls. -/
lemma session_eq (calls : List Call) (chunk : List Word) (m : Machine) :
    session calls chunk m = performAll m calls >>= fun (emitted, m') =>
      (m'.queue chunk).conclude.map (after emitted) := by
  unfold session
  rcases performAll m calls with fault | ⟨emitted, m'⟩
  · rfl
  · change _ = (m'.queue chunk).conclude.map (after emitted)
    rw [conclude_queue_eq_run]
    change (m'.run chunk).1 >>= _ = _
    rcases (m'.run chunk).1 with fault | outcome
    · rfl
    · rfl

/-- When and in what pieces input arrives does not matter.  If calls that end with a run go well,
they emit what one run emits that is given all the input at once, they stop as it stops, and they
leave the same machine behind; if that run faults, the first call that fails has its fault. -/
theorem session_eq_run (calls : List Call) (chunk : List Word) (m : Machine) :
    (∀ outcome m', session calls chunk m = .ok (outcome, m') →
        m.run (inputsOf calls ++ chunk) = (.ok outcome, m')) ∧
      ∀ fault, (m.run (inputsOf calls ++ chunk)).1 = .error fault →
        session calls chunk m = .error fault := by
  have hrun := conclude_queue_eq_run (inputsOf calls ++ chunk) m
  rcases hresult : m.run (inputsOf calls ++ chunk) with ⟨answer, machine⟩
  rw [hresult] at hrun
  rcases conclude_performAll calls chunk m with hequal | ⟨result, hok, hhalted⟩
  · rw [← session_eq, hrun] at hequal
    constructor
    · intro outcome m' h
      rw [h] at hequal
      cases answer with
      | error fault => cases hequal
      | ok outcome =>
        cases hequal
        rfl
    · intro fault h
      change answer = _ at h
      rw [h] at hequal
      exact hequal.symm
  · constructor
    · intro outcome m' h
      rw [session_eq, hhalted] at h
      cases h
    · intro fault h
      change answer = _ at h
      rw [hrun, h] at hok
      cases hok

/-- A machine that takes an input value and comes to its end. -/
def taking : Machine := boot ⟨#[⟨3, by omega, by omega⟩, ⟨5, by omega, by omega⟩,
  ⟨99, by omega, by omega⟩]⟩ {}

/-- A machine that takes an input value and goes on where there is no instruction. -/
def stranded : Machine := boot ⟨#[⟨3, by omega, by omega⟩, ⟨5, by omega, by omega⟩]⟩ {}

theorem session_eq_run_one_value :
    (∃ m', session [.step, .provide 1] [] taking = .ok (⟨[], .halted⟩, m') ∧
      taking.run [1] = (.ok ⟨[], .halted⟩, m')) ∧
      (stranded.run [1]).1 = .error (.decode 2 (.unknownOpcode 0)) ∧
        session [.step, .provide 1] [] stranded = .error (.decode 2 (.unknownOpcode 0)) := by
  have hsession : session [.step, .provide 1] [] taking = .ok (⟨[], .halted⟩,
      (taking.queue [1]).step.machine.step.machine) := by
    have hcalls : performAll taking [.step, .provide 1] = .ok ([], taking.queue [1]) := rfl
    have htaken : (taking.queue [1]).attempt = .ok (.running, (taking.queue [1]).step.machine) :=
      rfl
    have hhalted : (taking.queue [1]).step.machine.attempt =
        .ok (.halted, (taking.queue [1]).step.machine.step.machine) := rfl
    rw [session_eq, hcalls]
    change ((taking.queue [1]).queue []).conclude.map (after []) = _
    rw [queue_nil, map_after_nil, conclude_eq, htaken]
    change (taking.queue [1]).step.machine.conclude = _
    rw [conclude_eq, hhalted]
    rfl
  have hrun : (stranded.run [1]).1 = .error (.decode 2 (.unknownOpcode 0)) := by
    have htaken : (stranded.queue [1]).attempt =
        .ok (.running, (stranded.queue [1]).step.machine) := rfl
    have hfault : (stranded.queue [1]).step.machine.attempt =
        .error (.decode 2 (.unknownOpcode 0)) := rfl
    have hconclude : (stranded.queue [1]).conclude = .error (.decode 2 (.unknownOpcode 0)) := by
      rw [conclude_eq, htaken]
      change (stranded.queue [1]).step.machine.conclude = _
      rw [conclude_eq, hfault]
      rfl
    rw [conclude_queue_eq_run] at hconclude
    rcases hanswer : (stranded.run [1]).1 with fault | outcome
    · rw [hanswer] at hconclude
      cases hconclude
      rfl
    · rw [hanswer] at hconclude
      cases hconclude
  exact ⟨⟨_, hsession, (session_eq_run [.step, .provide 1] [] taking).1 _ _ hsession⟩, hrun,
    (session_eq_run [.step, .provide 1] [] stranded).2 _ hrun⟩

end Call

end Intcode
