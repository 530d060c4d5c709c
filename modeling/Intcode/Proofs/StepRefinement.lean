import Intcode.Proofs.EndlessMachine
import Mathlib.Logic.Basic

/-!
# Machines behave as if their tapes were endless

`Machine.execute` grows the tape with every cell that is read or written.  This module proves that
nothing but the number of kept cells depends on it: with every port, a machine and what it shows of
itself (`Machine.endless`) give the same answer and show the same afterwards (`endless_execute`).

The proof follows the two stages of an instruction.  The reading stage yields an action
(`yields_prepare`), and carrying out the action is carrying out its effect on the endless tape
(`endless_perform`).
-/

namespace Intcode

open EndlessMachine

/-! ## The reading stage -/

namespace Access

variable (m : EndlessMachine) (i : Instruction)

lemma yields_parameter (k : Nat) : (parameter m.ip k).Yields m.tape (m.parameter k) :=
  yields_read m.ip _ m.tape

lemma yields_exact (result : Option Word) : (inRange m.ip result).Yields m.tape (m.exact result) :=
  yields_inRange m.ip result m.tape

lemma yields_operand (k : Nat) :
    (operand m.ip m.relativeBase i k).Yields m.tape (m.operand i k) := by
  unfold operand EndlessMachine.operand
  refine (yields_parameter m k).bind fun param => ?_
  cases i.mode k with
  | position => exact yields_read m.ip param m.tape
  | immediate => exact yields_pure m.tape param
  | relative =>
    exact (yields_exact m (m.relativeBase.add? param)).bind fun address =>
      yields_read m.ip address m.tape

/-- A target that is not marked as a value is resolved as on the endless tape. -/
lemma yields_target {k : Nat} (h : i.mode k ≠ .immediate) :
    (target m.ip m.relativeBase i k).Yields m.tape (m.target i k) := by
  unfold target EndlessMachine.target
  refine (yields_parameter m k).bind fun param => ?_
  cases hmode : i.mode k with
  | position => exact yields_pure m.tape param
  | immediate => exact absurd hmode h
  | relative => exact yields_exact m (m.relativeBase.add? param)

lemma yields_fetch : (fetch m.ip).Yields m.tape m.fetch := by
  unfold fetch EndlessMachine.fetch
  refine (yields_read m.ip _ m.tape).bind fun word => ?_
  cases Instruction.decode word with
  | error cause => exact yields_throw m.tape _
  | ok i => exact yields_pure m.tape i

end Access

/-! ## From actions to effects -/

/-- What carrying out an action comes to on an endless tape. -/
def Action.effect (m : EndlessMachine) (i : Instruction) : Action → Except Fault Effect
  | store target value => do
    let next ← m.store i (m.ip + UInt64.ofNat i.width) target value
    return .go next
  | receive target => .ok (.ask (m.store i (m.ip + UInt64.ofNat i.width) target))
  | emit value =>
    .ok (.emit value
      { m.advance i (m.ip + UInt64.ofNat i.width) with lastOutput := some value })
  | jump destination => .ok (.go (m.advance i destination))
  | rebase base => .ok (.go { m.advance i (m.ip + UInt64.ofNat i.width) with relativeBase := base })
  | halt => .ok (.halt (m.advance i m.ip))

namespace Access

/-- The access yields an action that comes to the given outcome, or the fault that is the outcome.
-/
def Achieves (x : Access Action) (m : EndlessMachine) (i : Instruction)
    (outcome : Except Fault Effect) : Prop :=
  ∃ r, x.Yields m.tape r ∧ outcome = r >>= Action.effect m i

variable {m : EndlessMachine} {i : Instruction}

lemma achieves_pure (action : Action) : (pure action : Access Action).Achieves m i
    (action.effect m i) :=
  ⟨.ok action, yields_pure m.tape action, rfl⟩

lemma achieves_throw (fault : Fault) : (throw fault : Access Action).Achieves m i (.error fault) :=
  ⟨.error fault, yields_throw m.tape fault, rfl⟩

/-- What is achieved after an access is achieved with its answer. -/
lemma Yields.achieves {α : Type} {x : Access α} {f : α → Access Action} {r : Except Fault α}
    {g : α → Except Fault Effect} (hx : x.Yields m.tape r) (hf : ∀ a, (f a).Achieves m i (g a)) :
    (x >>= f).Achieves m i (r >>= g) := by
  cases r with
  | error fault => exact ⟨.error fault, hx.bind_error f, rfl⟩
  | ok a =>
    obtain ⟨answer, hanswer, hout⟩ := hf a
    exact ⟨answer, hx.bind_ok hanswer, hout⟩

/-- An operation on two operands, followed by a store, comes to the same on the endless tape. -/
lemma achieves_combine (hwidth : i.width = 4) (htarget : i.mode 2 ≠ .immediate)
    (operation : Word → Word → Option Word) :
    (combine m.ip m.relativeBase i operation).Achieves m i (m.compute i operation) := by
  unfold combine compute
  refine (yields_operand m i 0).achieves fun a => ?_
  refine (yields_operand m i 1).achieves fun b => ?_
  refine (yields_exact m (operation a b)).achieves fun value => ?_
  refine (yields_target m i htarget).achieves fun address => ?_
  have hnext : m.ip + 4 = m.ip + UInt64.ofNat i.width := by rw [hwidth]; rfl
  rw [hnext]
  exact achieves_pure (.store address value)

/-- A jump comes to the same on the endless tape. -/
lemma achieves_branch (hwidth : i.width = 3) (test : Word → Bool) :
    (Access.branch m.ip m.relativeBase i test).Achieves m i (m.branch i test) := by
  unfold Access.branch EndlessMachine.branch
  refine (yields_operand m i 0).achieves fun condition => ?_
  refine (yields_operand m i 1).achieves fun destination => ?_
  by_cases htest : test condition = true
  · rw [if_pos htest, if_pos htest]
    cases destination.toCount? with
    | none => exact achieves_throw _
    | some ip => exact achieves_pure (.jump ip)
  · have hnext : m.ip + 3 = m.ip + UInt64.ofNat i.width := by rw [hwidth]; rfl
    rw [if_neg htest, if_neg htest, hnext]
    exact achieves_pure (.jump _)

/-- The action of an instruction that does not write to a value comes to the instruction's effect
on the endless tape. -/
lemma achieves_resolve
    (htarget : ∀ param, i.opcode.writeParam? = some param → i.mode param ≠ .immediate) :
    (resolve m.ip m.relativeBase i).Achieves m i (m.effect i) := by
  have hwidth : ∀ opcode, i.opcode = opcode → i.width = opcode.width := by
    rintro opcode rfl
    rfl
  unfold resolve effect
  cases hop : i.opcode with
  | add => exact achieves_combine (hwidth _ hop) (htarget 2 (by rw [hop]; rfl)) Word.add?
  | mul => exact achieves_combine (hwidth _ hop) (htarget 2 (by rw [hop]; rfl)) Word.mul?
  | lessThan => exact achieves_combine (hwidth _ hop) (htarget 2 (by rw [hop]; rfl)) _
  | equals => exact achieves_combine (hwidth _ hop) (htarget 2 (by rw [hop]; rfl)) _
  | jumpIfTrue => exact achieves_branch (hwidth _ hop) _
  | jumpIfFalse => exact achieves_branch (hwidth _ hop) _
  | input =>
    have hnext : m.ip + 2 = m.ip + UInt64.ofNat i.width := by rw [hwidth _ hop]; rfl
    refine (yields_target m i (htarget 0 (by rw [hop]; rfl))).achieves fun address => ?_
    rw [hnext]
    exact achieves_pure (.receive address)
  | output =>
    have hnext : m.ip + 2 = m.ip + UInt64.ofNat i.width := by rw [hwidth _ hop]; rfl
    refine (yields_operand m i 0).achieves fun value => ?_
    rw [hnext]
    exact achieves_pure (.emit value)
  | adjustRelativeBase =>
    have hnext : m.ip + 2 = m.ip + UInt64.ofNat i.width := by rw [hwidth _ hop]; rfl
    refine (yields_operand m i 0).achieves fun offset => ?_
    refine (yields_exact m (m.relativeBase.add? offset)).achieves fun base => ?_
    rw [hnext]
    exact achieves_pure (.rebase base)
  | halt => exact achieves_pure .halt

/-- An instruction that passes the check does not write to a value. -/
lemma mode_ne_immediate_of_checkTarget {i' : Instruction}
    (h : Instruction.checkTarget i' = .ok i) :
    ∀ param, i.opcode.writeParam? = some param → i.mode param ≠ .immediate := by
  intro param hparam
  unfold Instruction.checkTarget at h
  split at h
  · next p hp =>
    split at h
    · cases h
    · next hmode =>
      cases h
      rw [hp] at hparam
      cases hparam
      exact hmode
  · next hp =>
    cases h
    rw [hp] at hparam
    cases hparam

/-- A decoded instruction does not write to a value. -/
lemma mode_ne_immediate_of_decode {word : Word} (h : Instruction.decode word = .ok i) :
    ∀ param, i.opcode.writeParam? = some param → i.mode param ≠ .immediate := by
  simp only [Instruction.decode, bind, Except.bind] at h
  split at h
  · cases h
  · split at h
    · cases h
    · split at h
      · cases h
      · split at h
        · cases h
        · exact mode_ne_immediate_of_checkTarget h

/-- The instruction at which a machine stands is decoded from a word. -/
lemma exists_decode_of_fetch (h : m.fetch = .ok i) : ∃ word, Instruction.decode word = .ok i := by
  unfold EndlessMachine.fetch at h
  cases hload : m.load (Word.ofCount m.ip) with
  | error fault =>
    rw [hload] at h
    cases h
  | ok word =>
    rw [hload] at h
    refine ⟨word, ?_⟩
    have hdecode : (Instruction.decode word).mapError (Fault.decode m.ip) = .ok i := h
    cases hword : Instruction.decode word with
    | error cause =>
      rw [hword] at hdecode
      cases hdecode
    | ok j =>
      rw [hword] at hdecode
      cases hdecode
      rfl

/-- The reading stage comes to what the instruction at which the machine stands comes to. -/
lemma yields_prepare (m : EndlessMachine) :
    ∃ r, (prepare m.ip m.relativeBase).Yields m.tape r ∧
      (m.fetch >>= m.effect) = r >>= fun (i, action) => action.effect m i := by
  unfold prepare
  have hyields := yields_fetch m
  cases hfetch : m.fetch with
  | error fault =>
    rw [hfetch] at hyields
    exact ⟨.error fault, hyields.bind_error _, rfl⟩
  | ok i =>
    rw [hfetch] at hyields
    obtain ⟨word, hword⟩ := exists_decode_of_fetch hfetch
    obtain ⟨r, hr, heffect⟩ := achieves_resolve (m := m) (mode_ne_immediate_of_decode hword)
    refine ⟨r >>= fun action => pure (i, action), ?_, ?_⟩
    · exact hyields.bind_ok (hr.bind fun action => yields_pure m.tape (i, action))
    · rw [bind_assoc]
      exact heffect

end Access

/-! ## Carrying out -/

/-- What a turn shows. -/
def Turn.endless {σ : Type} (turn : Turn Status σ) : Result σ :=
  (turn.answer, turn.machine.endless, turn.port)

namespace Machine

variable {σ : Type}

/-- An entry of the trace depends on what the machine shows alone. -/
lemma endless_traceEntry (m : Machine) (i : Instruction) :
    m.traceEntry i = m.endless.entry i := by
  unfold traceEntry entry
  congr 1
  refine List.map_congr_left fun k _ => ?_
  simp only [Tape.peek?, Tape.locate]
  change _ = if 0 ≤ (Word.ofCount (m.ip + 1 + UInt64.ofNat k)).toInt ∧
    (Word.ofCount (m.ip + 1 + UInt64.ofNat k)).toInt.toNat < m.tape.limit.toNat then
      m.tape.cell (Word.ofCount (m.ip + 1 + UInt64.ofNat k)).toInt.toNat else 0
  generalize Word.ofCount (m.ip + 1 + UInt64.ofNat k) = address
  by_cases hneg : address.toInt < 0
  · rw [if_pos hneg, if_neg fun h => absurd h.1 (Int.not_le.2 hneg)]
    rfl
  · by_cases hlimit : m.tape.limit.toNat ≤ address.toInt.toNat
    · rw [if_neg hneg, if_pos hlimit, if_neg fun h => absurd h.2 (Nat.not_lt.2 hlimit)]
      rfl
    · rw [if_neg hneg, if_neg hlimit,
        if_pos ⟨Int.not_lt.1 hneg, Nat.lt_of_not_le hlimit⟩]
      rfl

/-- What an instruction notes of itself. -/
def note (m : Machine) (i : Instruction) : Option TraceEntry :=
  if m.tracing then some (m.traceEntry i) else none

/-- Completing an instruction counts and notes it on the endless tape too. -/
lemma endless_complete (m : Machine) (i : Instruction) (ip : UInt64) (status : Status) :
    (m.complete (m.note i) ip status).endless =
      { m.endless.advance i ip with status := status } := by
  unfold complete note EndlessMachine.advance
  rw [endless_traceEntry]
  cases htracing : m.tracing with
  | false => simp [endless, htracing]
  | true => simp [endless, htracing]

/-- Writing a value comes to a store on the endless tape. -/
lemma endless_storing (m : Machine) (i : Instruction) (ip : UInt64) (target value : Word) (s : σ) :
    (m.storing (m.note i) ip target value s).endless =
      receive m.endless (m.endless.store i ip target value) s := by
  obtain ⟨hanswer, hshown⟩ := m.tape.write_eq target value
  have hcomplete := m.endless_complete i ip .running
  unfold storing store
  rcases hwrite : m.tape.write target value with ⟨answer, tape⟩
  rw [hwrite] at hanswer hshown
  change answer = _ at hanswer
  change tape.endless = _ at hshown
  change _ = receive _ ((m.tape.endless.write target value).mapError _ >>= _) _
  cases hendless : m.tape.endless.write target value with
  | error refusal =>
    rw [hendless] at hanswer hshown
    rw [hanswer]
    change (_, { m.endless with tape := tape.endless }, s) = _
    rw [hshown]
    rfl
  | ok e =>
    rw [hendless] at hanswer hshown
    rw [hanswer]
    change (_, { (m.complete (m.note i) ip .running).endless with tape := tape.endless }, s) = _
    rw [hcomplete, hshown]
    rfl

/-- To go on with a store is to go on with a value that is received and stored. -/
lemma carryOut_store (port : Port σ) (m : EndlessMachine) (i : Instruction) (ip : UInt64)
    (target value : Word) (s : σ) :
    carryOut port m (m.store i ip target value >>= fun next => pure (.go next)) s =
      receive m (m.store i ip target value) s := by
  unfold store
  cases m.tape.write target value with
  | error refusal => rfl
  | ok tape => rfl

/-- The queue is left as it is once the received value has been taken from it. -/
lemma receive_store (m : EndlessMachine) (rest : List Word) (i : Instruction) (ip : UInt64)
    (target value : Word) (s : σ) :
    receive { m with inputs := rest } (store { m with inputs := rest } i ip target value) s =
      receive { m with inputs := rest } (m.store i ip target value) s := by
  unfold store
  cases m.tape.write target value with
  | error refusal => rfl
  | ok tape => rfl

/-- Carrying out an action is carrying out its effect on the endless tape. -/
lemma endless_perform (port : Port σ) (m : Machine) (i : Instruction) (action : Action) (s : σ) :
    (m.perform port i action s).endless =
      carryOut port m.endless (action.effect m.endless i) s := by
  have hcomplete := m.endless_complete i
  cases action with
  | store target value =>
    rw [Action.effect, carryOut_store]
    exact m.endless_storing i (m.ip + UInt64.ofNat i.width) target value s
  | receive target =>
    unfold perform
    simp only [Action.effect, carryOut]
    have hshown : m.endless.inputs = m.inputs := rfl
    simp only [hshown]
    cases hinputs : m.inputs with
    | cons value rest =>
      refine (endless_storing { m with inputs := rest } i _ target value s).trans ?_
      exact receive_store m.endless rest i _ target value s
    | nil =>
      rcases port.receive s with ⟨fault | _ | value, s⟩
      · rfl
      · rfl
      · exact m.endless_storing i _ target value s
  | emit value =>
    unfold perform
    simp only [Action.effect, carryOut]
    rcases port.send value s with ⟨fault | sent, s⟩
    · rfl
    · exact congrArg (fun next => (_, { next with lastOutput := some value }, s))
        (hcomplete (m.ip + UInt64.ofNat i.width) (.hasOutput value))
  | jump destination => exact congrArg (fun next => (_, next, s)) (hcomplete destination .running)
  | rebase base =>
    exact congrArg (fun next => (_, { next with relativeBase := base }, s))
        (hcomplete (m.ip + UInt64.ofNat i.width) .running)
  | halt => exact congrArg (fun next => (_, next, s)) (hcomplete m.ip .halted)

/-- A machine and the machine on an endless tape that it looks like execute the same: they give the
same answer, they do the same to the port, and they look the same afterwards. -/
theorem endless_execute (port : Port σ) (m : Machine) (s : σ) :
    (m.execute port s).endless = m.endless.execute port s := by
  unfold execute EndlessMachine.execute
  change _ = if m.status = .halted then _ else _
  by_cases hhalted : m.status = .halted
  · rw [if_pos hhalted, if_pos hhalted]
    rfl
  · rw [if_neg hhalted, if_neg hhalted]
    unfold react
    change _ = carryOut port m.endless (if m.stepLimit ≤ m.steps then _ else _) s
    by_cases hlimit : m.stepLimit ≤ m.steps
    · rw [if_pos hlimit, if_pos hlimit]
      rfl
    · rw [if_neg hlimit, if_neg hlimit]
      obtain ⟨r, ⟨n, hrun⟩, heffect⟩ := Access.yields_prepare m.endless
      have hprepare : (Access.prepare m.ip m.relativeBase).run m.tape = (r, m.tape.pad n) :=
        hrun m.tape rfl
      have hshown : { m with tape := m.tape.pad n }.endless = m.endless := by
        unfold endless
        rw [Tape.endless_pad]
      rw [hprepare]
      change _ = carryOut port m.endless (m.endless.fetch >>= m.endless.effect) s
      rw [heffect]
      cases r with
      | error fault => exact congrArg (fun m => (_, m, s)) hshown
      | ok prepared =>
        have hperform :=
          endless_perform port { m with tape := m.tape.pad n } prepared.1 prepared.2 s
        rw [hshown] at hperform
        exact hperform

lemma status_receive {m : EndlessMachine} {resumed : Except Fault EndlessMachine} {s : σ}
    {status : Status} (h : (receive m resumed s).1 = .ok status) :
    (receive m resumed s).2.1.status = status := by
  cases resumed with
  | error fault => cases h
  | ok next =>
    cases h
    rfl

lemma status_carryOut {port : Port σ} {m : EndlessMachine} {outcome : Except Fault Effect} {s : σ}
    {status : Status} (h : (carryOut port m outcome s).1 = .ok status) :
    (carryOut port m outcome s).2.1.status = status := by
  unfold carryOut at h ⊢
  rcases outcome with fault | (next | next | ⟨value, next⟩ | resume)
  · cases h
  · cases h
    rfl
  · cases h
    rfl
  · simp only at h ⊢
    split at h
    · cases h
      rfl
    · cases h
  · simp only at h ⊢
    split at h
    · exact status_receive h
    · split at h
      · exact status_receive h
      · cases h
        rfl
      · cases h

/-- The answer of an instruction is the status that it leaves behind. -/
lemma status_execute {port : Port σ} {m : Machine} {s : σ} {status : Status}
    (h : (m.execute port s).answer = .ok status) : (m.execute port s).machine.status = status := by
  have hexecute := endless_execute port m s
  have hanswer : (m.endless.execute port s).1 = .ok status := by
    rw [← hexecute]
    exact h
  have hstatus : (m.execute port s).machine.status = (m.endless.execute port s).2.1.status := by
    rw [← hexecute]
    rfl
  rw [hstatus]
  unfold EndlessMachine.execute at hanswer ⊢
  by_cases hhalted : m.endless.status = .halted
  · rw [if_pos hhalted] at hanswer ⊢
    cases hanswer
    exact hhalted
  · rw [if_neg hhalted] at hanswer ⊢
    exact status_carryOut hanswer

lemma status_of_execute_eq {port : Port σ} {m m' : Machine} {s s' : σ} {status : Status}
    (h : m.execute port s = ⟨.ok status, m', s'⟩) : m'.status = status := by
  have hstatus := status_execute (congrArg Turn.answer h)
  rw [h] at hstatus
  exact hstatus

/-! ## One step -/

/-- The number of kept cells cannot be told from a step: machines that look the same give the same
answer and look the same afterwards. -/
lemma step_eq_of_endless_eq {m m' : Machine} (h : m'.endless = m.endless) :
    m'.step.answer = m.step.answer ∧ m'.step.machine.endless = m.step.machine.endless := by
  have hstep := endless_execute Port.detached m ()
  have hstep' := endless_execute Port.detached m' ()
  rw [h, ← hstep] at hstep'
  exact ⟨congrArg Prod.fst hstep', congrArg (fun result => result.2.1) hstep'⟩

/-- A step of a machine is a step of the machine on an endless tape that it looks like, and nothing
else can be told from it.  The endless tape has a bound only if the limit reaches the capacity. -/
theorem step_refines_endless_step (m : Machine) :
    (m.step.answer, m.step.machine.endless) = m.endless.step ∧
      (∀ m' : Machine, m'.endless = m.endless →
        m'.step.answer = m.step.answer ∧ m'.step.machine.endless = m.step.machine.endless) ∧
      (m.tape.limit.toNat < Tape.capacity → m.endless.tape.bound = none) := by
  refine ⟨?_, fun m' h => step_eq_of_endless_eq h, Tape.bound_endless⟩
  have hexecute := endless_execute Port.detached m ()
  exact congrArg (fun result => (result.1, result.2.1)) hexecute

/-- A machine that is about to emit the word at address seven. -/
def peeking : Machine :=
  boot ⟨#[⟨4, by omega, by omega⟩, ⟨7, by omega, by omega⟩]⟩ {}

theorem step_refines_endless_step_peeking :
    ({ peeking with tape := peeking.tape.pad 5 }.step.answer = peeking.step.answer ∧
      { peeking with tape := peeking.tape.pad 5 }.step.machine.endless =
        peeking.step.machine.endless) ∧ peeking.endless.tape.bound = none := by
  have hrefines := step_refines_endless_step peeking
  have hshown : { peeking with tape := peeking.tape.pad 5 }.endless = peeking.endless := by
    unfold endless
    rw [Tape.endless_pad]
  exact ⟨hrefines.2.1 _ hshown, hrefines.2.2 (by decide)⟩

/-- A machine without a limit worth the name that is about to emit a word out of all bounds. -/
def overreaching : Machine :=
  boot ⟨#[⟨4, by omega, by omega⟩, ⟨1152921504606846975, by omega, by omega⟩]⟩
    ⟨100000000, 18446744073709551615, false⟩

/-- A machine does not do what it would do on a tape without any bound. -/
theorem step_ne_unbounded_step :
    ¬ ∀ m : Machine,
      m.step.answer = { m.endless with tape := m.endless.tape.unbounded }.step.1 := by
  intro h
  have hanswer : overreaching.step.answer = .error .capacity := rfl
  have hunbounded : { overreaching.endless with
      tape := overreaching.endless.tape.unbounded }.step.1 = .ok (.hasOutput 0) := rfl
  have hequal := h overreaching
  rw [hanswer, hunbounded] at hequal
  cases hequal

end Machine

end Intcode
