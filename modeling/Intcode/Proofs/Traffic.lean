import Intcode.Proofs.Completion
import Mathlib.Data.List.Basic

/-!
# What goes through a port

Every value passes once between a machine and the outside world.  A run in front of a port is
recorded (`Port.recorded`), and the record is compared with the instructions that the run has
executed (`Machine.visits`): what has been sent is what completed output instructions have put out,
and what has been taken, from the machine's own queue first and then from the port, is what
completed input instructions have stored (`runWith_balances`).

One value may be lost, when an input instruction has taken it and there is no place for it.  A value
that the port refuses is not lost, since the machine stands at the same output instruction as before
and offers it again.
-/

namespace Intcode

namespace Port

variable {σ : Type}

/-- What a port has been asked to do, and what it has answered. -/
inductive Event where
  /-- The port has been asked for a value. -/
  | asked (answer : Except Fault (Option Word))
  /-- The port has been offered a value. -/
  | offered (value : Word) (answer : Except Fault Unit)

/-- The value that has been received. -/
def Event.received? : Event → Option Word
  | asked (.ok (some value)) => some value
  | _ => none

/-- The value that has been sent. -/
def Event.sent? : Event → Option Word
  | offered value (.ok ()) => some value
  | _ => none

/-- The port with a record of what it has been asked to do. -/
def recorded (port : Port σ) : Port (σ × List Event) where
  receive s :=
    ((port.receive s.1).1, ((port.receive s.1).2, s.2 ++ [.asked (port.receive s.1).1]))
  send value s :=
    ((port.send value s.1).1,
      ((port.send value s.1).2, s.2 ++ [.offered value (port.send value s.1).1]))

end Port

/-- The turn with a record beside the port. -/
def Turn.recorded {α σ : Type} (turn : Turn α σ) (record : List Port.Event) :
    Turn α (σ × List Port.Event) :=
  ⟨turn.answer, turn.machine, (turn.port, record)⟩

namespace Machine

open Port

variable {σ : Type} {m m' : Machine} {port : Port σ} {s s' : σ} {status : Status} {fault : Fault}
  {stop : Stop} {i : Instruction} {action : Action} {target value : Word}

/-! ## One instruction -/

/-- What the next instruction asks the port to do. -/
def calls (port : Port σ) (m : Machine) (s : σ) : List Event :=
  (m.execute port.recorded (s, [])).port.2

/-- What an action asks the port to do. -/
def callsFor (port : Port σ) (m : Machine) (s : σ) : Action → List Event
  | .receive _ => if m.inputs = [] then [.asked (port.receive s).1] else []
  | .emit value => [.offered value (port.send value s).1]
  | .store _ _ | .jump _ | .rebase _ | .halt => []

lemma storing_recorded (note : Option TraceEntry) (ip : UInt64) (target value : Word) (m : Machine)
    (s : σ) (record : List Event) :
    m.storing note ip target value (s, record) =
      (m.storing note ip target value s).recorded record := by
  unfold storing
  rcases m.tape.write target value with ⟨refusal | written, tape⟩
  · rfl
  · rfl

lemma perform_recorded (port : Port σ) (m : Machine) (i : Instruction) (action : Action) (s : σ)
    (record : List Event) :
    m.perform port.recorded i action (s, record) =
      (m.perform port i action s).recorded (record ++ m.callsFor port s action) := by
  have hnil : record = record ++ [] := (List.append_nil record).symm
  cases action with
  | store target value =>
    rw [callsFor, ← hnil]
    exact storing_recorded _ _ _ _ _ _ _
  | receive target =>
    unfold perform callsFor
    cases hinputs : m.inputs with
    | cons value rest =>
      simp only [reduceCtorEq, if_false, ← hnil]
      exact storing_recorded _ _ _ _ _ _ _
    | nil =>
      rcases hreceive : port.receive s with ⟨fault | (_ | value), s'⟩
      · simp [Port.recorded, hreceive, Turn.recorded]
      · simp [Port.recorded, hreceive, Turn.recorded]
      · simp only [Port.recorded, hreceive, if_true]
        exact storing_recorded _ _ _ _ _ _ _
  | emit value =>
    rcases hsend : port.send value s with ⟨fault | sent, s'⟩
    · simp [perform, callsFor, Port.recorded, hsend, Turn.recorded]
    · simp [perform, callsFor, Port.recorded, hsend, Turn.recorded]
  | jump destination =>
    rw [callsFor, ← hnil]
    rfl
  | rebase base =>
    rw [callsFor, ← hnil]
    rfl
  | halt =>
    rw [callsFor, ← hnil]
    rfl

/-- A machine that executes asks the port for what goes with its request. -/
lemma IsReady.execute_recorded (h : m.IsReady) (port : Port σ) (s : σ) (record : List Event) :
    m.execute port.recorded (s, record) = (m.execute port s).recorded
      (match m.request with
        | .ok (_, action) => record ++ m.callsFor port s action
        | .error _ => record) := by
  rw [h.execute_eq, h.execute_eq]
  cases m.request with
  | error fault => rfl
  | ok request => exact perform_recorded port m.prepared request.1 request.2 s record

lemma calls_of_not_ready (h : ¬ m.IsReady) (port : Port σ) (s : σ) : m.calls port s = [] := by
  unfold calls
  rw [execute_of_not_ready h]

lemma IsReady.calls_of_error (h : m.IsReady) (hrequest : m.request = .error fault) (port : Port σ)
    (s : σ) : m.calls port s = [] := by
  unfold calls
  rw [h.execute_recorded, hrequest]
  rfl

/-- A request asks the port for what goes with its action. -/
lemma IsReady.calls_eq (h : m.IsReady) (hrequest : m.request = .ok (i, action)) (port : Port σ)
    (s : σ) : m.calls port s = m.callsFor port s action := by
  unfold calls
  rw [h.execute_recorded, hrequest]
  exact List.nil_append _

/-- Recording changes nothing, and what an instruction asks the port to do is added to the
record. -/
lemma execute_recorded (port : Port σ) (m : Machine) (s : σ) (record : List Event) :
    m.execute port.recorded (s, record) =
      (m.execute port s).recorded (record ++ m.calls port s) := by
  by_cases hready : m.IsReady
  · unfold calls
    rw [hready.execute_recorded, hready.execute_recorded]
    cases m.request with
    | error fault => simp [Turn.recorded]
    | ok request => simp [Turn.recorded]
  · unfold calls
    rw [execute_of_not_ready hready, execute_of_not_ready hready, execute_of_not_ready hready]
    simp [Turn.recorded]

/-- Tells whether the next instruction is completed: it neither faults nor is suspended, and the
machine has not come to its end before. -/
def completesNext (port : Port σ) (m : Machine) (s : σ) : Bool :=
  match (m.execute port s).answer with
  | .ok status => m.status ≠ .halted ∧ status ≠ .needsInput
  | .error _ => false

/-- The action of the next instruction, if it is completed. -/
def completed? (port : Port σ) (m : Machine) (s : σ) : Option Action :=
  if m.completesNext port s then (m.request.map Prod.snd).toOption else none

/-- The value that the next instruction puts out, if it is an output instruction and completed. -/
def putsOut? (port : Port σ) (m : Machine) (s : σ) : Option Word :=
  match m.completed? port s with
  | some (.emit value) => some value
  | _ => none

/-- The value that the next instruction takes in, if it is an input instruction and completed: it is
found afterwards at the address that the instruction names. -/
def takesIn? (port : Port σ) (m : Machine) (s : σ) : Option Word :=
  match m.completed? port s with
  | some (.receive target) => ((m.execute port s).machine.tape.peek? target).toOption
  | _ => none

lemma Completes.completesNext (h : Completes port m s status m' s') :
    m.completesNext port s = true := by
  unfold Machine.completesNext
  rw [h.execute_eq]
  cases h with
  | stores hready | takes hready | receives hready | emits hready | jumps hready | rebases hready
  | halts hready => simp [hready.not_halted]

lemma Faults.completesNext (h : Faults port m s fault m' s') : m.completesNext port s = false := by
  unfold Machine.completesNext
  rw [h.execute_eq]

lemma Suspends.completesNext (h : Suspends port m s m' s') : m.completesNext port s = false := by
  unfold Machine.completesNext
  rw [h.execute_eq]
  simp

lemma Rests.completesNext (h : Rests m s status m' s') (port : Port σ) :
    m.completesNext port s = false := by
  unfold Machine.completesNext
  rw [h.execute_eq]
  simp [h.halted]

lemma completed?_of_incomplete (h : m.completesNext port s = false) :
    m.completed? port s = none := by
  unfold completed?
  rw [h]
  rfl

lemma putsOut?_of_incomplete (h : m.completesNext port s = false) : m.putsOut? port s = none := by
  unfold putsOut?
  rw [completed?_of_incomplete h]

lemma takesIn?_of_incomplete (h : m.completesNext port s = false) : m.takesIn? port s = none := by
  unfold takesIn?
  rw [completed?_of_incomplete h]

lemma completed?_eq (h : m.completesNext port s = true) (hrequest : m.request = .ok (i, action)) :
    m.completed? port s = some action := by
  unfold completed?
  rw [h, hrequest]
  rfl

/-- How values add up: what has been sent has been put out, and what has been taken, from the queue
and behind it from the port, has been taken in or is lost. -/
structure Balances (queue queue' : List Word) (record : List Event)
    (putOut takenIn lost : List Word) : Prop where
  /-- What has been sent. -/
  sent : record.filterMap Event.sent? = putOut
  /-- What has been taken. -/
  taken : ∃ taken, queue = taken ++ queue' ∧
    taken ++ record.filterMap Event.received? = takenIn ++ lost

lemma balances_nil (queue : List Word) : Balances queue queue [] [] [] [] where
  sent := rfl
  taken := ⟨[], rfl, rfl⟩

/-- The tape holds a value that has been put there. -/
lemma peek?_putting {place : Nat} (h : m.tape.reach target = .ok place) (i : Instruction)
    (value : Word) : (m.putting i place value).tape.peek? target = .ok value :=
  Tape.peek?_put h value

/-- A completed instruction loses nothing. -/
lemma Completes.balances (h : Completes port m s status m' s') :
    Balances m.inputs m'.inputs (m.calls port s) (m.putsOut? port s).toList
      (m.takesIn? port s).toList [] := by
  have hcomplete := h.completesNext
  have hexecute := h.execute_eq
  cases h with
  | stores hready hrequest | jumps hready hrequest | rebases hready hrequest
  | halts hready hrequest =>
    have hcompleted := completed?_eq hcomplete hrequest
    rw [hready.calls_eq hrequest]
    simp only [putsOut?, takesIn?, hcompleted]
    exact balances_nil m.inputs
  | @takes i target value rest place hready hrequest hinputs hreach =>
    have hstored := peek?_putting (m := { m.prepared with inputs := rest })
      ((reach_prepared m target).trans hreach) i value
    have hcompleted := completed?_eq hcomplete hrequest
    rw [hready.calls_eq hrequest]
    simp only [putsOut?, takesIn?, hcompleted, hexecute, callsFor, hinputs, hstored]
    exact ⟨rfl, [value], rfl, rfl⟩
  | @receives i target value place s' hready hrequest hinputs hreceive hreach =>
    have hstored := peek?_putting ((reach_prepared m target).trans hreach) i value
    have hcompleted := completed?_eq hcomplete hrequest
    rw [hready.calls_eq hrequest]
    simp only [putsOut?, takesIn?, hcompleted, hexecute, callsFor, hinputs, hreceive, hstored]
    exact ⟨rfl, [], hinputs.symm, rfl⟩
  | @emits i value s' hready hrequest hsend =>
    have hcompleted := completed?_eq hcomplete hrequest
    rw [hready.calls_eq hrequest]
    simp only [putsOut?, takesIn?, hcompleted, callsFor, hsend]
    exact ⟨rfl, [], rfl, rfl⟩

/-- A machine that is suspended has been given nothing. -/
lemma Suspends.balances (h : Suspends port m s m' s') :
    Balances m.inputs m'.inputs (m.calls port s) [] [] [] := by
  obtain ⟨hready, ⟨i, target, hrequest⟩, hinputs, hreceive, rfl⟩ := h
  rw [hready.calls_eq hrequest]
  simp only [callsFor, hinputs, hreceive]
  exact ⟨rfl, [], hinputs.symm, rfl⟩

/-- What a fault loses: nothing, or the value for which there is no place. -/
lemma Faults.balances (h : Faults port m s fault m' s') :
    ∃ lost, Balances m.inputs m'.inputs (m.calls port s) [] [] lost ∧
      (lost = [] ∨ ∃ value refusal, lost = [value] ∧ m'.LacksPlace refusal ∧
        fault = refusal.fault m'.ip) := by
  have hlacks {i : Instruction} {target : Word} {refusal : Refusal}
      (hrequest : m.request = .ok (i, .receive target))
      (hreach : m.tape.reach target = .error refusal) : m.prepared.LacksPlace refusal :=
    ⟨i, target, (request_prepared m).trans hrequest, (reach_prepared m target).trans hreach⟩
  cases h with
  | exhausted hhalted hlimit =>
    have hready : ¬ m.IsReady := fun hready => hready.not_exhausted hlimit
    rw [calls_of_not_ready hready]
    exact ⟨[], balances_nil _, Or.inl rfl⟩
  | unreadable hready hrequest =>
    rw [hready.calls_of_error hrequest]
    exact ⟨[], balances_nil m.inputs, Or.inl rfl⟩
  | unstored hready hrequest hreach =>
    rw [hready.calls_eq hrequest]
    exact ⟨[], balances_nil m.inputs, Or.inl rfl⟩
  | @spilled i target value rest refusal hready hrequest hinputs hreach =>
    rw [hready.calls_eq hrequest]
    simp only [callsFor, hinputs]
    refine ⟨[value], ⟨rfl, [value], rfl, rfl⟩, Or.inr ⟨value, refusal, rfl, ?_, rfl⟩⟩
    exact hlacks hrequest hreach
  | @dropped i target value refusal s' hready hrequest hinputs hreceive hreach =>
    rw [hready.calls_eq hrequest]
    simp only [callsFor, hinputs, hreceive]
    refine ⟨[value], ⟨rfl, [], hinputs.symm, rfl⟩, Or.inr ⟨value, refusal, rfl, ?_, rfl⟩⟩
    exact hlacks hrequest hreach
  | unanswered hready hrequest hinputs hreceive =>
    rw [hready.calls_eq hrequest]
    simp only [callsFor, hinputs, hreceive]
    exact ⟨[], ⟨rfl, [], hinputs.symm, rfl⟩, Or.inl rfl⟩
  | unsent hready hrequest hsend =>
    rw [hready.calls_eq hrequest]
    simp only [callsFor, hsend]
    exact ⟨[], ⟨rfl, [], rfl, rfl⟩, Or.inl rfl⟩

/-- An instruction makes no call, or those that go with its action. -/
lemma calls_cases (port : Port σ) (m : Machine) (s : σ) :
    m.calls port s = [] ∨ ∃ i action, m.IsReady ∧ m.request = .ok (i, action) ∧
      m.calls port s = m.callsFor port s action := by
  by_cases hready : m.IsReady
  · cases hrequest : m.request with
    | error fault => exact Or.inl (hready.calls_of_error hrequest port s)
    | ok request =>
      exact Or.inr ⟨request.1, request.2, hready, rfl, hready.calls_eq hrequest port s⟩
  · exact Or.inl (calls_of_not_ready hready port s)

/-- The port is asked only if nothing is queued. -/
lemma inputs_eq_nil_of_asked {answer : Except Fault (Option Word)}
    (h : .asked answer ∈ m.calls port s) : m.inputs = [] := by
  rcases calls_cases port m s with hnone | ⟨i, action, _, _, hcalls⟩
  · rw [hnone] at h
    cases h
  · rw [hcalls] at h
    cases action with
    | receive target =>
      by_contra hinputs
      rw [callsFor, if_neg hinputs] at h
      cases h
    | emit value =>
      rw [callsFor, List.mem_singleton] at h
      cases h
    | store | jump | rebase | halt => cases h

/-- Nothing is received from the port as long as something is queued. -/
lemma received_calls (port : Port σ) (m : Machine) (s : σ) :
    (m.calls port s).filterMap Event.received? = [] ∨ m.inputs = [] := by
  by_cases hinputs : m.inputs = []
  · exact Or.inr hinputs
  · refine Or.inl (List.filterMap_eq_nil_iff.2 fun event hevent => ?_)
    cases event with
    | asked answer => exact absurd (inputs_eq_nil_of_asked hevent) hinputs
    | offered value answer => rfl

/-- A value is offered by an output instruction that the machine is ready to execute, and if it is
refused, the machine only keeps the cells that it has read. -/
lemma execute_of_refused (h : .offered value (.error fault) ∈ m.calls port s) :
    m.IsReady ∧ (∃ i, m.request = .ok (i, .emit value)) ∧
      m.execute port s = ⟨.error fault, m.prepared, (port.send value s).2⟩ := by
  rcases calls_cases port m s with hnone | ⟨i, action, hready, hrequest, hcalls⟩
  · rw [hnone] at h
    cases h
  · rw [hcalls] at h
    cases action with
    | receive target => simp [callsFor] at h
    | emit offered =>
      rw [callsFor, List.mem_singleton] at h
      obtain ⟨rfl, hanswer⟩ := Event.offered.inj h
      have hsend : port.send value s = (.error fault, (port.send value s).2) :=
        Prod.ext hanswer.symm rfl
      exact ⟨hready, ⟨i, hrequest⟩, (Faults.unsent hready hrequest hsend).execute_eq⟩
    | store | jump | rebase | halt => cases h

/-- An execution without a fault loses nothing. -/
lemma balances_of_execute_eq (h : m.execute port s = ⟨.ok status, m', s'⟩) :
    Balances m.inputs m'.inputs (m.calls port s) (m.putsOut? port s).toList
      (m.takesIn? port s).toList [] := by
  rcases completes_of_execute_eq h with hcompletes | ⟨_, hsuspends⟩ | hrests
  · exact hcompletes.balances
  · rw [putsOut?_of_incomplete hsuspends.completesNext,
      takesIn?_of_incomplete hsuspends.completesNext]
    exact hsuspends.balances
  · have hready : ¬ m.IsReady := fun hready => hready.not_halted hrests.halted
    rw [putsOut?_of_incomplete (hrests.completesNext port),
      takesIn?_of_incomplete (hrests.completesNext port), calls_of_not_ready hready, hrests.machine]
    exact balances_nil m.inputs

/-- The balances of two runs of instructions, one behind the other.  If the first one has received
anything, no value is queued any more. -/
lemma Balances.append {queue queue₁ queue₂ putOut putOut' takenIn takenIn' lost : List Word}
    {record record' : List Event} (h : Balances queue queue₁ record putOut takenIn [])
    (h' : Balances queue₁ queue₂ record' putOut' takenIn' lost)
    (hreceived : record.filterMap Event.received? = [] ∨ queue = []) :
    Balances queue queue₂ (record ++ record') (putOut ++ putOut') (takenIn ++ takenIn') lost where
  sent := by rw [List.filterMap_append, h.sent, h'.sent]
  taken := by
    obtain ⟨taken, rfl, htaken⟩ := h.taken
    obtain ⟨taken', rfl, htaken'⟩ := h'.taken
    rw [List.append_nil] at htaken
    refine ⟨taken ++ taken', (List.append_assoc _ _ _).symm, ?_⟩
    rw [List.filterMap_append, ← htaken, List.append_assoc, List.append_assoc _ _ lost, ← htaken']
    rcases hreceived with hnone | hempty
    · rw [hnone, List.nil_append, List.append_nil]
    · have hlater : taken' = [] := by
        rw [List.append_eq_nil_iff, List.append_eq_nil_iff] at hempty
        exact hempty.2.1
      rw [hlater, List.nil_append, List.nil_append, List.append_assoc]

/-! ## Runs -/

/-- The machines that execute an instruction in a run, each with the port that it meets. -/
def visits (port : Port σ) (m : Machine) (s : σ) : List (Machine × σ) :=
  (m, s) ::
    match _h : m.execute port s with
    | ⟨.ok .running, m', s'⟩ => visits port m' s'
    | ⟨.ok (.hasOutput _), m', s'⟩ => visits port m' s'
    | ⟨.ok .halted, _, _⟩ | ⟨.ok .needsInput, _, _⟩ | ⟨.error _, _, _⟩ => []
termination_by m.remaining
decreasing_by
  all_goals exact remaining_lt_of_execute_eq _h (by simp) (by simp)

/-- A run goes on from where its first instruction has led to. -/
lemma visits_eq (port : Port σ) (m : Machine) (s : σ) :
    visits port m s = (m, s) ::
      match m.execute port s with
      | ⟨.ok .running, m', s'⟩ => visits port m' s'
      | ⟨.ok (.hasOutput _), m', s'⟩ => visits port m' s'
      | ⟨.ok .halted, _, _⟩ | ⟨.ok .needsInput, _, _⟩ | ⟨.error _, _, _⟩ => [] := by
  rw [visits]
  congr 1
  split <;> rename_i h <;> rw [h]

lemma visits_of_fault (h : m.execute port s = ⟨.error fault, m', s'⟩) :
    visits port m s = [(m, s)] := by
  rw [visits_eq, h]

lemma visits_of_stop (h : m.execute port s = ⟨.ok stop.status, m', s'⟩) :
    visits port m s = [(m, s)] := by
  rw [visits_eq, h]
  cases stop <;> rfl

lemma visits_of_step (h : m.execute port s = ⟨.ok status, m', s'⟩) (hhalted : status ≠ .halted)
    (hneeds : status ≠ .needsInput) : visits port m s = (m, s) :: visits port m' s' := by
  rw [visits_eq, h]
  cases status with
  | halted => exact absurd rfl hhalted
  | needsInput => exact absurd rfl hneeds
  | running => rfl
  | hasOutput value => rfl

/-- What a run asks the port to do. -/
def traffic (port : Port σ) (m : Machine) (s : σ) : List Event :=
  (m.runWith port.recorded (s, [])).port.2

/-- The calls of a run, instruction by instruction. -/
def callsOf (port : Port σ) (visited : List (Machine × σ)) : List Event :=
  visited.flatMap fun v => v.1.calls port v.2

lemma callsOf_cons (port : Port σ) (m : Machine) (s : σ) (visited : List (Machine × σ)) :
    callsOf port ((m, s) :: visited) = m.calls port s ++ callsOf port visited := rfl

lemma callsOf_single (port : Port σ) (m : Machine) (s : σ) :
    callsOf port [(m, s)] = m.calls port s := List.flatMap_singleton _ _

/-- Recording changes nothing of a run, and what its instructions ask the port to do is added to the
record. -/
lemma runWith_recorded (port : Port σ) (m : Machine) (s : σ) (record : List Event) :
    m.runWith port.recorded (s, record) =
      (m.runWith port s).recorded (record ++ callsOf port (visits port m s)) := by
  induction m, s using runWith_induction port generalizing record with
  | fault m s fault m₁ s₁ hturn hrun =>
    have hrecorded := execute_recorded port m s record
    rw [hturn] at hrecorded
    rw [hrun, visits_of_fault hturn, callsOf_single]
    exact runWith_of_fault hrecorded
  | stop m s stop m₁ s₁ hturn hrun =>
    have hrecorded := execute_recorded port m s record
    rw [hturn] at hrecorded
    rw [hrun, visits_of_stop hturn, callsOf_single]
    exact runWith_of_stop hrecorded
  | step m s status m₁ s₁ hturn hhalted hneeds hrun ih =>
    have hrecorded := execute_recorded port m s record
    rw [hturn] at hrecorded
    rw [hrun, visits_of_step hturn hhalted hneeds, callsOf_cons, ← List.append_assoc, ← ih]
    exact runWith_of_step hrecorded hhalted hneeds

/-- The traffic of a run is made up of the calls of its instructions. -/
lemma traffic_eq (port : Port σ) (m : Machine) (s : σ) :
    m.traffic port s = callsOf port (visits port m s) := by
  unfold traffic
  rw [runWith_recorded]
  exact List.nil_append _

/-- The values that completed output instructions have put out. -/
def putOut (port : Port σ) (visited : List (Machine × σ)) : List Word :=
  visited.filterMap fun v => v.1.putsOut? port v.2

/-- The values that completed input instructions have taken in. -/
def takenIn (port : Port σ) (visited : List (Machine × σ)) : List Word :=
  visited.filterMap fun v => v.1.takesIn? port v.2

lemma putOut_cons (port : Port σ) (m : Machine) (s : σ) (visited : List (Machine × σ)) :
    putOut port ((m, s) :: visited) = (m.putsOut? port s).toList ++ putOut port visited := by
  unfold putOut
  rw [List.filterMap_eq_flatMap_toList, List.flatMap_cons, ← List.filterMap_eq_flatMap_toList]

lemma takenIn_cons (port : Port σ) (m : Machine) (s : σ) (visited : List (Machine × σ)) :
    takenIn port ((m, s) :: visited) = (m.takesIn? port s).toList ++ takenIn port visited := by
  unfold takenIn
  rw [List.filterMap_eq_flatMap_toList, List.flatMap_cons, ← List.filterMap_eq_flatMap_toList]

/-- What a run loses: nothing, or the value with which it ends because there is no place for it. -/
def Loses (run : Turn Stop σ) (lost : List Word) : Prop :=
  lost = [] ∨ ∃ value refusal, lost = [value] ∧ run.machine.LacksPlace refusal ∧
    run.answer = .error (refusal.fault run.machine.ip)

/-- The values of a run that ends with its first instruction. -/
lemma Balances.single {lost : List Word} (h : Balances m.inputs m'.inputs (m.calls port s)
    (m.putsOut? port s).toList (m.takesIn? port s).toList lost) :
    Balances m.inputs m'.inputs (callsOf port [(m, s)]) (putOut port [(m, s)])
      (takenIn port [(m, s)]) lost := by
  have hout : putOut port [(m, s)] = (m.putsOut? port s).toList := by
    rw [putOut_cons]
    exact List.append_nil _
  have hin : takenIn port [(m, s)] = (m.takesIn? port s).toList := by
    rw [takenIn_cons]
    exact List.append_nil _
  rw [callsOf_single, hout, hin]
  exact h

/-- The values of a run that goes on behind its first instruction. -/
lemma Balances.cons {queue lost : List Word} {visited : List (Machine × σ)}
    (hrest : Balances m'.inputs queue (callsOf port visited) (putOut port visited)
      (takenIn port visited) lost)
    (hturn : m.execute port s = ⟨.ok status, m', s'⟩) :
    Balances m.inputs queue (callsOf port ((m, s) :: visited)) (putOut port ((m, s) :: visited))
      (takenIn port ((m, s) :: visited)) lost := by
  rw [putOut_cons, takenIn_cons, callsOf_cons]
  exact (balances_of_execute_eq hturn).append hrest (received_calls port m s)

/-- The values of a run add up. -/
lemma exists_balances_runWith (port : Port σ) (m : Machine) (s : σ) :
    ∃ lost, Balances m.inputs (m.runWith port s).machine.inputs (callsOf port (visits port m s))
        (putOut port (visits port m s)) (takenIn port (visits port m s)) lost ∧
      Loses (m.runWith port s) lost := by
  induction m, s using runWith_induction port with
  | fault m s fault m₁ s₁ hturn hrun =>
    have hfaults := faults_of_execute_eq hturn
    obtain ⟨lost, hbalances, hlost⟩ := hfaults.balances
    rw [hrun, visits_of_fault hturn]
    refine ⟨lost, .single ?_, ?_⟩
    · rw [putsOut?_of_incomplete hfaults.completesNext,
        takesIn?_of_incomplete hfaults.completesNext]
      exact hbalances
    · rcases hlost with hnone | ⟨value, refusal, hvalue, hlacks, rfl⟩
      · exact Or.inl hnone
      · exact Or.inr ⟨value, refusal, hvalue, hlacks, rfl⟩
  | stop m s stop m₁ s₁ hturn hrun =>
    rw [hrun, visits_of_stop hturn]
    exact ⟨[], (balances_of_execute_eq hturn).single, Or.inl rfl⟩
  | step m s status m₁ s₁ hturn hhalted hneeds hrun ih =>
    obtain ⟨lost, hbalances, hlost⟩ := ih
    rw [hrun, visits_of_step hturn hhalted hneeds]
    exact ⟨lost, hbalances.cons hturn, hlost⟩

/-! ## Refused values -/

/-- A value that is refused ends the run, at the instruction that offers it and with nothing changed
but that cells have been kept. -/
lemma exists_last_of_refused (h : .offered value (.error fault) ∈ callsOf port (visits port m s)) :
    ∃ m₀ s₀, (visits port m s).getLast? = some (m₀, s₀) ∧
      .offered value (.error fault) ∈ m₀.calls port s₀ ∧
      m.runWith port s = ⟨.error fault, m₀.prepared, (port.send value s₀).2⟩ := by
  -- An instruction that does not fault has not been refused anything.
  have hquiet {m m₁ : Machine} {s s₁ : σ} {status : Status}
      (hturn : m.execute port s = ⟨.ok status, m₁, s₁⟩) :
      .offered value (.error fault) ∉ m.calls port s := by
    intro hcalls
    rw [(execute_of_refused hcalls).2.2] at hturn
    cases hturn
  induction m, s using runWith_induction port with
  | fault m s fault' m₁ s₁ hturn hrun =>
    rw [visits_of_fault hturn, callsOf_single] at h
    have hrefused := (execute_of_refused h).2.2
    rw [visits_of_fault hturn]
    exact ⟨m, s, rfl, h, runWith_of_fault hrefused⟩
  | stop m s stop m₁ s₁ hturn hrun =>
    rw [visits_of_stop hturn, callsOf_single] at h
    exact absurd h (hquiet hturn)
  | step m s status m₁ s₁ hturn hhalted hneeds hrun ih =>
    rw [visits_of_step hturn hhalted hneeds] at h ⊢
    rw [callsOf_cons, List.mem_append] at h
    obtain ⟨m₀, s₀, hlast, hrefused, hrest⟩ := ih (h.resolve_left (hquiet hturn))
    refine ⟨m₀, s₀, ?_, hrefused, hrun.trans hrest⟩
    rw [List.getLast?_cons, hlast]
    rfl

/-- What a value leaves behind that has been refused with a fault. -/
structure Stays (port : Port σ) (m : Machine) (s : σ) (value : Word) (fault : Fault) : Prop where
  /-- The run ends with the fault. -/
  answer : (m.runWith port s).answer = .error fault
  /-- The run ends upon the instruction that has offered the value, which has not moved the machine,
  emitted anything or been counted. -/
  last : ∃ m₀ s₀, (visits port m s).getLast? = some (m₀, s₀) ∧
    m₀.calls port s₀ = [.offered value (.error fault)] ∧
    (m.runWith port s).machine.ip = m₀.ip ∧
    (m.runWith port s).machine.lastOutput = m₀.lastOutput ∧
    (m.runWith port s).machine.steps = m₀.steps
  /-- The machine stands at an output instruction for the value. -/
  stands : ∃ i, (m.runWith port s).machine.request = .ok (i, .emit value) ∧ i.opcode = .output
  /-- The next run offers the value before it does anything else with its port. -/
  again : ∀ {τ : Type} (next : Port τ) (s' : τ), ∃ later,
    (m.runWith port s).machine.traffic next s' = .offered value (next.send value s').1 :: later

/-- A value that has been refused stays with the machine. -/
lemma stays_of_refused (h : .offered value (.error fault) ∈ callsOf port (visits port m s)) :
    Stays port m s value fault := by
  obtain ⟨m₀, s₀, hlast, hrefused, hrun⟩ := exists_last_of_refused h
  obtain ⟨hready, ⟨i, hrequest⟩, _⟩ := execute_of_refused hrefused
  have hcalls := hready.calls_eq hrequest port s₀
  have hanswer : (port.send value s₀).1 = .error fault := by
    rw [hcalls, callsFor, List.mem_singleton] at hrefused
    exact (Event.offered.inj hrefused).2.symm
  have hrequest' : m₀.prepared.request = .ok (i, .emit value) := by
    rw [request_prepared, hrequest]
  have hready' : m₀.prepared.IsReady := ⟨hready.not_halted, hready.not_exhausted⟩
  have hmachine : (m.runWith port s).machine = m₀.prepared := by rw [hrun]
  refine ⟨by rw [hrun], ⟨m₀, s₀, hlast, ?_, ?_⟩, ⟨i, ?_, ?_⟩, fun next s' => ?_⟩
  · rw [hcalls, callsFor, hanswer]
  · rw [hmachine]
    exact ⟨rfl, rfl, rfl⟩
  · rw [hmachine, hrequest']
  · exact List.mem_singleton.1 (exists_decode_of_request hrequest).2
  · rw [hmachine, traffic_eq, visits_eq, callsOf_cons, hready'.calls_eq hrequest' next s']
    exact ⟨_, rfl⟩

/-! ## Once and in order -/

/-- Every value passes once through a port, whatever the port does.  Recording changes nothing of a
run.  The values that have been sent are those that completed output instructions have put out.  A
value that is refused stays with the machine.  The port is asked by machines only that have nothing
queued.  The values that have been taken from the queue and then from the port are those that
completed input instructions have taken in, apart from at most one more for which there is no
place. -/
theorem runWith_balances (port : Port σ) (m : Machine) (s : σ) :
    m.runWith port.recorded (s, []) = (m.runWith port s).recorded (m.traffic port s) ∧
      m.traffic port s = callsOf port (visits port m s) ∧
      (m.traffic port s).filterMap Event.sent? = putOut port (visits port m s) ∧
      (∀ value fault, .offered value (.error fault) ∈ m.traffic port s →
        Stays port m s value fault) ∧
      (∀ v ∈ visits port m s, ∀ answer, .asked answer ∈ v.1.calls port v.2 → v.1.inputs = []) ∧
      ∃ taken lost, m.inputs = taken ++ (m.runWith port s).machine.inputs ∧
        taken ++ (m.traffic port s).filterMap Event.received? =
          takenIn port (visits port m s) ++ lost ∧
        Loses (m.runWith port s) lost := by
  have htraffic := traffic_eq port m s
  obtain ⟨lost, ⟨hsent, taken, hqueue, htaken⟩, hlost⟩ := exists_balances_runWith port m s
  refine ⟨?_, htraffic, ?_, ?_, ?_, taken, lost, hqueue, ?_, hlost⟩
  · rw [htraffic, runWith_recorded, List.nil_append]
  · rw [htraffic, hsent]
  · intro value fault hrefused
    rw [htraffic] at hrefused
    exact stays_of_refused hrefused
  · intro v _ answer hasked
    exact inputs_eq_nil_of_asked hasked
  · rw [htraffic, htaken]

/-- A machine that takes in two values, of which one is queued, and puts the second one out. -/
def relaying : Machine :=
  { boot ⟨#[3, 20, 3, 21, 4, 21, 99].map Word.ofCount⟩ {} with inputs := [1] }

/-- A script that gives a value and takes none. -/
def closing : Script := ⟨[.ok (some 0)], #[], some 0⟩

/-- The second value is asked for when the first one has been taken in, and it stays with the
machine because it is refused. -/
theorem runWith_balances_closing :
    relaying.traffic Port.scripted closing =
        [.asked (.ok (some 0)), .offered 0 (.error .channelClosed)] ∧
      Stays Port.scripted relaying closing 0 .channelClosed ∧
      ∃ v ∈ visits Port.scripted relaying closing,
        .asked (.ok (some 0)) ∈ v.1.calls Port.scripted v.2 ∧ v.1.inputs = [] := by
  have htraffic : relaying.traffic Port.scripted closing =
      [.asked (.ok (some 0)), .offered 0 (.error .channelClosed)] := by
    with_unfolding_all rfl
  obtain ⟨_, hcalls, _, hrefused, hasked, _⟩ := runWith_balances Port.scripted relaying closing
  have hmem : .asked (.ok (some 0)) ∈ callsOf Port.scripted
      (visits Port.scripted relaying closing) := by
    rw [← hcalls, htraffic]
    exact List.mem_cons_self
  obtain ⟨v, hv, hcall⟩ := List.mem_flatMap.1 hmem
  have hoffered : .offered 0 (.error .channelClosed) ∈ relaying.traffic Port.scripted closing := by
    rw [htraffic]
    exact List.mem_cons_of_mem _ List.mem_cons_self
  exact ⟨htraffic, hrefused 0 .channelClosed hoffered, v, hv, hcall, hasked v hv _ hcall⟩

end Machine

end Intcode
