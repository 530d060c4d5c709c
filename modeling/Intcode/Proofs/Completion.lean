import Intcode.Proofs.Exchange
import Intcode.Proofs.Faults

/-!
# How instructions are completed

The counterpart of the ways to fault.  An instruction is completed in one of seven ways, and in each
of them it is laid down what it answers and what becomes of the machine and of the port
(`Completes`; `completes_of_execute_eq` and `Completes.execute_eq` say that this is so).  Apart from
that an instruction may be suspended (`Suspends`), and a machine that has halted executes nothing.

Together with `Faults` this is all that an execution can do, so that facts about instructions are
proved way by way and not by looking into the execution again.
-/

namespace Intcode

/-! ## Places -/

namespace Tape

variable {t t' : Tape} {address : Word} {place : Nat}

lemma locate_eq_ok_iff :
    t.locate address = .ok place ↔
      0 ≤ address.toInt ∧ address.toInt.toNat < t.limit.toNat ∧ address.toInt.toNat = place := by
  unfold locate
  by_cases hneg : address.toInt < 0
  · simp [hneg, Int.not_le.2 hneg]
  · by_cases hbeyond : t.limit.toNat ≤ address.toInt.toNat
    · simp [hneg, hbeyond, Nat.not_lt.2 hbeyond]
    · simp [hneg, hbeyond, Int.not_lt.1 hneg, Nat.lt_of_not_le hbeyond]

lemma reach_eq_ok_iff :
    t.reach address = .ok place ↔ t.locate address = .ok place ∧ place + 1 < capacity := by
  unfold reach
  cases t.locate address with
  | error refusal => simp
  | ok located =>
    by_cases hcapacity : capacity ≤ located + 1
    · simp only [if_pos hcapacity]
      grind
    · simp only [if_neg hcapacity]
      grind

/-- Whether an address is allowed depends on the limit alone. -/
lemma locate_congr (h : t'.limit = t.limit) (address : Word) :
    t'.locate address = t.locate address := by
  unfold locate
  rw [h]

/-- A value that has been put at its place is seen there. -/
lemma peek?_put (h : t.reach address = .ok place) (value : Word) :
    ((t.extend place).put place value).peek? address = .ok value := by
  have hlimit : ((t.extend place).put place value).limit = t.limit := by
    rw [limit_put, limit_extend]
  have hkept : place < (t.extend place).size := by
    rw [size_extend]
    omega
  unfold peek?
  rw [locate_congr hlimit, (reach_eq_ok_iff.1 h).1]
  change Except.ok (((t.extend place).put place value).cell place) = _
  rw [cell_put _ hkept, if_pos rfl]

end Tape

namespace Machine

variable {σ : Type} {m m' : Machine} {port : Port σ} {s s' : σ} {status : Status} {i : Instruction}
  {target value : Word} {place : Nat} {stop : Stop} {inputs : List Word} {outcome : Outcome}

/-- The address behind an instruction. -/
def nextIp (m : Machine) (i : Instruction) : UInt64 := m.ip + UInt64.ofNat i.width

/-- The machine behind an instruction that has put a value at a place of the tape. -/
def putting (m : Machine) (i : Instruction) (place : Nat) (value : Word) : Machine :=
  { m with tape := (m.tape.extend place).put place value }.complete (m.note i) (m.nextIp i) .running

/-- A value that has a place is put there. -/
lemma storing_of_reach_ok (h : m.tape.reach target = .ok place) (note : Option TraceEntry)
    (ip : UInt64) (value : Word) (s : σ) :
    m.storing note ip target value s =
      ⟨.ok .running,
        { m with tape := (m.tape.extend place).put place value }.complete note ip .running, s⟩ := by
  unfold storing Tape.write
  rw [h]

/-- A value is stored only if it has a place. -/
lemma exists_reach_ok_of_storing {note : Option TraceEntry} {ip : UInt64}
    (h : m.storing note ip target value s = ⟨.ok status, m', s'⟩) :
    ∃ place, m.tape.reach target = .ok place ∧ status = .running ∧
      m' = { m with tape := (m.tape.extend place).put place value }.complete note ip .running ∧
      s' = s := by
  cases hreach : m.tape.reach target with
  | error refusal =>
    rw [storing_of_reach_error hreach] at h
    cases h
  | ok place =>
    rw [storing_of_reach_ok hreach] at h
    cases h
    exact ⟨place, rfl, rfl, rfl, rfl⟩

/-! ## The ways to complete an instruction -/

/-- The ways in which an instruction is completed, with the answer, the machine and the port that
are left. -/
inductive Completes (port : Port σ) (m : Machine) (s : σ) : Status → Machine → σ → Prop
  /-- A result is stored. -/
  | stores {i : Instruction} {target value : Word} {place : Nat} (hready : m.IsReady)
    (hrequest : m.request = .ok (i, .store target value))
    (hreach : m.tape.reach target = .ok place) :
    Completes port m s .running (m.prepared.putting i place value) s
  /-- A value from the queue is stored. -/
  | takes {i : Instruction} {target value : Word} {rest : List Word} {place : Nat}
    (hready : m.IsReady) (hrequest : m.request = .ok (i, .receive target))
    (hinputs : m.inputs = value :: rest) (hreach : m.tape.reach target = .ok place) :
    Completes port m s .running ({ m.prepared with inputs := rest }.putting i place value) s
  /-- A value from the port is stored. -/
  | receives {i : Instruction} {target value : Word} {place : Nat} {s' : σ} (hready : m.IsReady)
    (hrequest : m.request = .ok (i, .receive target)) (hinputs : m.inputs = [])
    (hreceive : port.receive s = (.ok (some value), s'))
    (hreach : m.tape.reach target = .ok place) :
    Completes port m s .running (m.prepared.putting i place value) s'
  /-- A value is handed to the port. -/
  | emits {i : Instruction} {value : Word} {s' : σ} (hready : m.IsReady)
    (hrequest : m.request = .ok (i, .emit value))
    (hsend : port.send value s = (.ok (), s')) :
    Completes port m s (.hasOutput value)
      ({ m.prepared with lastOutput := some value }.complete (m.prepared.note i) (m.nextIp i)
        (.hasOutput value)) s'
  /-- The machine goes on elsewhere, or behind a jump that is not taken. -/
  | jumps {i : Instruction} {destination : UInt64} (hready : m.IsReady)
    (hrequest : m.request = .ok (i, .jump destination)) :
    Completes port m s .running (m.prepared.complete (m.prepared.note i) destination .running) s
  /-- The relative base is moved. -/
  | rebases {i : Instruction} {base : Word} (hready : m.IsReady)
    (hrequest : m.request = .ok (i, .rebase base)) :
    Completes port m s .running
      ({ m.prepared with relativeBase := base }.complete (m.prepared.note i) (m.nextIp i)
        .running) s
  /-- The machine comes to its end. -/
  | halts {i : Instruction} (hready : m.IsReady) (hrequest : m.request = .ok (i, .halt)) :
    Completes port m s .halted (m.prepared.complete (m.prepared.note i) m.ip .halted) s

/-- The machine is suspended for want of input. -/
structure Suspends (port : Port σ) (m : Machine) (s : σ) (m' : Machine) (s' : σ) : Prop where
  /-- The machine executes an instruction. -/
  ready : m.IsReady
  /-- The instruction asks for input. -/
  request : ∃ i target, m.request = .ok (i, .receive target)
  /-- Nothing is queued. -/
  inputs : m.inputs = []
  /-- The port has no value either. -/
  receive : port.receive s = (.ok none, s')
  /-- The cells that were read have been kept. -/
  machine : m' = { m.prepared with status := .needsInput }

/-- The machine has halted and executes nothing. -/
structure Rests (m : Machine) (s : σ) (status : Status) (m' : Machine) (s' : σ) : Prop where
  /-- The machine has halted. -/
  halted : m.status = .halted
  /-- It says so. -/
  status : status = .halted
  /-- It stays as it is. -/
  machine : m' = m
  /-- The port stays as it is. -/
  port : s' = s

/-- Each of the ways is taken. -/
lemma Completes.execute_eq (h : Completes port m s status m' s') :
    m.execute port s = ⟨.ok status, m', s'⟩ := by
  have hreached {target : Word} {place : Nat} (hreach : m.tape.reach target = .ok place) :
      m.prepared.tape.reach target = .ok place := by
    rw [reach_prepared, hreach]
  have hshown : m.prepared.inputs = m.inputs := rfl
  cases h with
  | stores hready hrequest hreach =>
    rw [hready.execute_eq, hrequest]
    exact storing_of_reach_ok (hreached hreach) _ _ _ s
  | @takes i target value rest place hready hrequest hinputs hreach =>
    rw [hready.execute_eq, hrequest]
    simp only [perform, hshown, hinputs]
    exact storing_of_reach_ok (m := { m.prepared with inputs := rest }) (hreached hreach) _ _ _ s
  | receives hready hrequest hinputs hreceive hreach =>
    rw [hready.execute_eq, hrequest]
    simp only [perform, hshown, hinputs, hreceive]
    exact storing_of_reach_ok (hreached hreach) _ _ _ _
  | emits hready hrequest hsend =>
    rw [hready.execute_eq, hrequest]
    simp only [perform, hsend]
    rfl
  | jumps hready hrequest =>
    rw [hready.execute_eq, hrequest]
    rfl
  | rebases hready hrequest =>
    rw [hready.execute_eq, hrequest]
    rfl
  | halts hready hrequest =>
    rw [hready.execute_eq, hrequest]
    rfl

/-- For want of input a machine is suspended. -/
lemma Suspends.execute_eq (h : Suspends port m s m' s') :
    m.execute port s = ⟨.ok .needsInput, m', s'⟩ := by
  obtain ⟨hready, ⟨i, target, hrequest⟩, hinputs, hreceive, rfl⟩ := h
  have hshown : m.prepared.inputs = [] := hinputs
  rw [hready.execute_eq, hrequest]
  simp only [perform, hshown, hreceive]

/-- A machine that has halted rests. -/
lemma Rests.execute_eq (h : Rests m s status m' s') : m.execute port s = ⟨.ok status, m', s'⟩ := by
  obtain ⟨hhalted, rfl, rfl, rfl⟩ := h
  unfold execute
  rw [if_pos hhalted]

/-- An execution of a machine that has halted does nothing. -/
lemma execute_of_halted (h : m.status = .halted) (port : Port σ) (s : σ) :
    m.execute port s = ⟨.ok .halted, m, s⟩ :=
  Rests.execute_eq ⟨h, rfl, rfl, rfl⟩

/-- Nor does a run. -/
lemma runWith_of_halted (h : m.status = .halted) (port : Port σ) (s : σ) :
    m.runWith port s = ⟨.ok .halted, m, s⟩ :=
  runWith_of_stop (execute_of_halted h port s)

/-- An execution without a fault completes an instruction in one of these ways, unless the machine
is suspended or has halted before. -/
lemma completes_of_execute_eq (h : m.execute port s = ⟨.ok status, m', s'⟩) :
    Completes port m s status m' s' ∨ status = .needsInput ∧ Suspends port m s m' s' ∨
      Rests m s status m' s' := by
  by_cases hhalted : m.status = .halted
  · unfold execute at h
    rw [if_pos hhalted] at h
    cases h
    exact Or.inr (Or.inr ⟨hhalted, rfl, rfl, rfl⟩)
  by_cases hlimit : m.stepLimit ≤ m.steps
  · unfold execute at h
    rw [if_neg hhalted, if_pos hlimit] at h
    cases h
  have hready : m.IsReady := ⟨hhalted, hlimit⟩
  have hshown : m.prepared.inputs = m.inputs := rfl
  rw [hready.execute_eq] at h
  cases hrequest : m.request with
  | error fault =>
    rw [hrequest] at h
    cases h
  | ok request =>
    obtain ⟨i, action⟩ := request
    rw [hrequest] at h
    simp only [perform] at h
    cases action with
    | store target value =>
      obtain ⟨place, hreach, rfl, rfl, rfl⟩ := exists_reach_ok_of_storing h
      rw [reach_prepared] at hreach
      exact Or.inl (.stores hready hrequest hreach)
    | receive target =>
      cases hinputs : m.inputs with
      | cons value rest =>
        simp only [hshown, hinputs] at h
        obtain ⟨place, hreach, rfl, rfl, rfl⟩ := exists_reach_ok_of_storing h
        have hreach' : m.tape.reach target = .ok place := by rw [← reach_prepared, ← hreach]
        exact Or.inl (.takes hready hrequest hinputs hreach')
      | nil =>
        simp only [hshown, hinputs] at h
        rcases hreceive : port.receive s with ⟨fault | (_ | value), s''⟩
        · simp only [hreceive] at h
          cases h
        · simp only [hreceive] at h
          cases h
          have hmachine : { m.prepared with inputs := [], status := .needsInput } =
              { m.prepared with status := .needsInput } := by
            rw [← hinputs]
            rfl
          exact Or.inr (Or.inl ⟨rfl, hready, ⟨i, target, hrequest⟩, hinputs, hreceive, hmachine⟩)
        · simp only [hreceive] at h
          obtain ⟨place, hreach, rfl, rfl, rfl⟩ := exists_reach_ok_of_storing h
          rw [reach_prepared] at hreach
          exact Or.inl (.receives hready hrequest hinputs hreceive hreach)
    | emit value =>
      rcases hsend : port.send value s with ⟨fault | sent, s''⟩
      · simp only [hsend] at h
        cases h
      · simp only [hsend] at h
        cases h
        exact Or.inl (.emits hready hrequest hsend)
    | jump destination =>
      cases h
      exact Or.inl (.jumps hready hrequest)
    | rebase base =>
      cases h
      exact Or.inl (.rebases hready hrequest)
    | halt =>
      cases h
      exact Or.inl (.halts hready hrequest)

/-- What is true however an execution goes is true of the machine that it leaves. -/
lemma machine_execute {P : Machine → Prop}
    (faults : ∀ fault m' s', Faults port m s fault m' s' → P m')
    (completes : ∀ status m' s', Completes port m s status m' s' → P m')
    (suspends : ∀ m' s', Suspends port m s m' s' → P m') (rests : m.status = .halted → P m) :
    P (m.execute port s).machine := by
  rcases hexecute : m.execute port s with ⟨fault | status, m', s'⟩
  · exact faults fault m' s' (faults_of_execute_eq hexecute)
  · rcases completes_of_execute_eq hexecute with hcompletes | ⟨_, hsuspends⟩ | hrests
    · exact completes status m' s' hcompletes
    · exact suspends m' s' hsuspends
    · rw [hrests.machine]
      exact rests hrests.halted

/-! ## What is counted -/

/-- As long as a step is left, the next one can be counted. -/
lemma IsReady.toNat_succ_steps (h : m.IsReady) : (m.steps + 1).toNat = m.steps.toNat + 1 := by
  have hleft : ¬ m.stepLimit.toNat ≤ m.steps.toNat := fun hle =>
    h.not_exhausted (UInt64.le_iff_toNat_le.2 hle)
  have hlimit := m.stepLimit.toNat_lt
  rw [UInt64.toNat_add, UInt64.toNat_one]
  omega

/-- An execution counts a step, of which one was left, or it counts nothing. -/
lemma steps_execute (port : Port σ) (m : Machine) (s : σ) :
    (m.execute port s).machine.steps = m.steps ∨
      m.IsReady ∧ (m.execute port s).machine.steps.toNat = m.steps.toNat + 1 := by
  refine machine_execute
    (P := fun m' => m'.steps = m.steps ∨ m.IsReady ∧ m'.steps.toNat = m.steps.toNat + 1) ?_ ?_ ?_ ?_
  · intro fault m' s' hfaults
    cases hfaults <;> exact Or.inl rfl
  · intro status m' s' hcompletes
    cases hcompletes with
    | stores hready | takes hready | receives hready | emits hready | jumps hready | rebases hready
    | halts hready => exact Or.inr ⟨hready, hready.toNat_succ_steps⟩
  · intro m' s' hsuspends
    rw [hsuspends.machine]
    exact Or.inl rfl
  · intro _
    exact Or.inl rfl

/-- A run does not take back what has been counted. -/
lemma steps_le_runWith (port : Port σ) (m : Machine) (s : σ) :
    m.steps.toNat ≤ (m.runWith port s).machine.steps.toNat := by
  refine machine_runWith (P := fun m' => m.steps.toNat ≤ m'.steps.toNat) ?_ (Nat.le_refl _) s
  intro m' s' hle
  rcases steps_execute port m' s' with hsame | ⟨_, hnext⟩
  · rwa [hsame]
  · omega

/-! ## How runs end -/

/-- A machine is suspended only in the way that is laid down for it. -/
lemma suspends_of_execute_eq (h : m.execute port s = ⟨.ok .needsInput, m', s'⟩) :
    Suspends port m s m' s' := by
  rcases completes_of_execute_eq h with hcompletes | ⟨_, hsuspends⟩ | hrests
  · cases hcompletes
  · exact hsuspends
  · cases hrests.status

/-- A run that stops does so upon the instruction that it executes last. -/
lemma exists_execute_of_runWith (h : m.runWith port s = ⟨.ok stop, m', s'⟩) :
    ∃ (m₁ : Machine) (s₁ : σ), m₁.execute port s₁ = ⟨.ok stop.status, m', s'⟩ := by
  induction m, s using runWith_induction port with
  | fault m s fault m₁ s₁ hturn hrun =>
    rw [hrun] at h
    cases h
  | stop m s stop m₁ s₁ hturn hrun =>
    rw [hrun] at h
    cases h
    exact ⟨m, s, hturn⟩
  | step m s status m₁ s₁ hturn _ _ hrun ih => exact ih (hrun ▸ h)

/-- A machine that a run leaves without a fault asks for input or has halted. -/
lemma stopped_of_run (h : m.run inputs = (.ok outcome, m')) :
    outcome.stop = .awaitingInput ∧ m'.Asks ∨ outcome.stop = .halted ∧ m'.status = .halted := by
  rcases hrun : (m.queue inputs).runWith Port.buffered ⟨[], #[]⟩ with ⟨fault | stop, m₁, b⟩
  · rw [run_of_runWith_eq hrun] at h
    cases h
  · rw [run_of_runWith_eq hrun] at h
    cases h
    obtain ⟨m₂, s₂, hlast⟩ := exists_execute_of_runWith hrun
    cases stop with
    | halted => exact Or.inr ⟨rfl, status_of_execute_eq hlast⟩
    | awaitingInput =>
      have hasks := asks_of_needsInput (congrArg Turn.answer hlast)
      rw [hlast] at hasks
      exact Or.inl ⟨rfl, hasks⟩

end Machine

end Intcode
