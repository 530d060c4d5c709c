import Intcode.Machine.Action
import Intcode.Port

/-!
# Executing one instruction

`Machine.execute` executes the instruction at which a machine stands, against a port. It always
gives back the machine and the state of the port, with an answer: the new status, or the fault that
kept the instruction from being completed.

A halted machine stays as it is. Otherwise the step limit is checked, then the instruction is
prepared, then its action is carried out. An input instruction takes the first value of the
machine's own queue, and asks the port only if the queue is empty; if the port has no value either,
the machine is suspended, and the same instruction is executed again later. An instruction that is
not completed leaves the instruction pointer, the relative base, the step count, the last output and
the trace as they were.

Every completed instruction uses up one of the remaining steps (`remaining_execute_lt`).
-/
namespace Intcode

/-- The answer of a machine with what has become of the machine and of the port. -/
structure Turn (α σ : Type) where
  /-- The answer, or the fault that kept the machine from giving one. -/
  answer : Except Fault α
  /-- The machine afterwards. -/
  machine : Machine
  /-- The state of the port afterwards. -/
  port : σ

namespace Machine

variable {σ : Type}

/-- Ends an instruction: notes it, counts it and goes on at `ip`. -/
def complete (note : Option TraceEntry) (ip : UInt64) (status : Status) (m : Machine) : Machine :=
  { m with
    ip := ip
    status := status
    steps := m.steps + 1
    trace := match note with
      | some entry => m.trace.push entry
      | none => m.trace }

/-- Writes a value and, unless the tape refuses it, ends the instruction. -/
def storing (note : Option TraceEntry) (ip : UInt64) (target value : Word) (m : Machine) (s : σ) :
    Turn Status σ :=
  match m.tape.write target value with
  | (.ok (), tape) => ⟨.ok .running, { m with tape := tape }.complete note ip .running, s⟩
  | (.error refusal, tape) => ⟨.error (refusal.fault m.ip), { m with tape := tape }, s⟩

/-- Carries out what an instruction asks for. -/
def perform (port : Port σ) (i : Instruction) (action : Action) (m : Machine) (s : σ) :
    Turn Status σ :=
  let note := if m.tracing then some (m.traceEntry i) else none
  let next := m.ip + UInt64.ofNat i.width
  match action with
  | .store target value => storing note next target value m s
  | .receive target =>
    match m.inputs with
    | value :: rest => storing note next target value { m with inputs := rest } s
    | [] =>
      match port.receive s with
      | (.ok (some value), s) => storing note next target value m s
      | (.ok none, s) => ⟨.ok .needsInput, { m with status := .needsInput }, s⟩
      | (.error fault, s) => ⟨.error fault, m, s⟩
  | .emit value =>
    match port.send value s with
    | (.ok (), s) =>
      ⟨.ok (.hasOutput value),
        { m with lastOutput := some value }.complete note next (.hasOutput value), s⟩
    | (.error fault, s) => ⟨.error fault, m, s⟩
  | .jump destination => ⟨.ok .running, m.complete note destination .running, s⟩
  | .rebase base => ⟨.ok .running, { m with relativeBase := base }.complete note next .running, s⟩
  | .halt => ⟨.ok .halted, m.complete note m.ip .halted, s⟩

/-- Executes the instruction at which the machine stands. -/
def execute (port : Port σ) (m : Machine) (s : σ) : Turn Status σ :=
  if m.status = .halted then ⟨.ok .halted, m, s⟩
  else if m.stepLimit ≤ m.steps then ⟨.error (.stepLimit m.stepLimit), m, s⟩
  else
    match (Access.prepare m.ip m.relativeBase).run m.tape with
    | (.ok (i, action), tape) => perform port i action { m with tape := tape } s
    | (.error fault, tape) => ⟨.error fault, { m with tape := tape }, s⟩

/-- A completed instruction is one of those that were remaining. -/
theorem remaining_complete_lt {note : Option TraceEntry} {ip : UInt64} {status : Status}
    {m : Machine} (h : m.steps < m.stepLimit) :
    (m.complete note ip status).remaining < m.remaining := by
  have hlt := UInt64.lt_iff_toNat_lt.1 h
  have hlimit := m.stepLimit.toNat_lt
  have hsucc : (m.steps + 1).toNat = m.steps.toNat + 1 := by
    rw [UInt64.toNat_add, UInt64.toNat_one]
    omega
  simp only [remaining, complete, hsucc]
  omega

theorem remaining_storing_lt {note : Option TraceEntry} {ip : UInt64} {target value : Word}
    {m : Machine} {s : σ} {status : Status} (hm : m.steps < m.stepLimit)
    (h : (m.storing note ip target value s).answer = .ok status) :
    (m.storing note ip target value s).machine.remaining < m.remaining := by
  unfold storing at h ⊢
  split at h
  · exact remaining_complete_lt (m := { m with tape := _ }) hm
  · cases h

/-- An action that does not suspend the machine is carried out at the cost of a step. -/
theorem remaining_perform_lt {port : Port σ} {i : Instruction} {action : Action} {m : Machine}
    {s : σ} {status : Status} (hm : m.steps < m.stepLimit)
    (h : (m.perform port i action s).answer = .ok status) (hstatus : status ≠ .needsInput) :
    (m.perform port i action s).machine.remaining < m.remaining := by
  unfold perform at h ⊢
  simp only at h ⊢
  split at h
  · exact remaining_storing_lt hm h
  · split at h
    · exact remaining_storing_lt (m := { m with inputs := _ }) hm h
    · split at h
      · exact remaining_storing_lt hm h
      · exact absurd (Except.ok.inj h).symm hstatus
      · cases h
  · split at h
    · exact remaining_complete_lt (m := { m with lastOutput := _ }) hm
    · cases h
  · exact remaining_complete_lt hm
  · exact remaining_complete_lt (m := { m with relativeBase := _ }) hm
  · exact remaining_complete_lt hm

/-- A machine that has not halted executes an instruction at the cost of a step, unless it is
suspended. -/
theorem remaining_execute_lt_of_ne {port : Port σ} {m : Machine} {s : σ} {status : Status}
    (hm : m.status ≠ .halted) (h : (m.execute port s).answer = .ok status)
    (hneeds : status ≠ .needsInput) : (m.execute port s).machine.remaining < m.remaining := by
  unfold execute at h ⊢
  rw [if_neg hm] at h ⊢
  split at h
  · cases h
  · rename_i hlimit
    simp only [hlimit, if_false] at h ⊢
    split at h
    · exact remaining_perform_lt (m := { m with tape := _ })
        (UInt64.lt_iff_toNat_lt.2 (Nat.lt_of_not_le fun hle =>
          hlimit (UInt64.le_iff_toNat_le.2 hle))) h hneeds
    · cases h

/-- An instruction that leaves the machine running is executed at the cost of a step. -/
theorem remaining_execute_lt {port : Port σ} {m : Machine} {s : σ} {status : Status}
    (h : (m.execute port s).answer = .ok status) (hhalted : status ≠ .halted)
    (hneeds : status ≠ .needsInput) : (m.execute port s).machine.remaining < m.remaining := by
  refine remaining_execute_lt_of_ne (fun hm => hhalted ?_) h hneeds
  unfold execute at h
  rw [if_pos hm] at h
  exact (Except.ok.inj h).symm

theorem stepLimit_storing (note : Option TraceEntry) (ip : UInt64) (target value : Word)
    (m : Machine) (s : σ) :
    (m.storing note ip target value s).machine.stepLimit = m.stepLimit := by
  unfold storing
  split <;> rfl

/-- Executing an instruction does not change the step limit. -/
theorem stepLimit_execute (port : Port σ) (m : Machine) (s : σ) :
    (m.execute port s).machine.stepLimit = m.stepLimit := by
  unfold execute
  split
  · rfl
  · split
    · rfl
    · split
      · unfold perform
        simp only
        split
        · exact stepLimit_storing _ _ _ _ _ _
        · split
          · exact stepLimit_storing _ _ _ _ _ _
          · split
            · exact stepLimit_storing _ _ _ _ _ _
            · rfl
            · rfl
        · split <;> rfl
        · rfl
        · rfl
        · rfl
      · rfl

/-- Tells how far a machine has come from another one: it has executed nothing, or it has fewer
steps left. -/
def Spent (m m' : Machine) : Prop :=
  (m'.steps = m.steps ∧ m'.remaining = m.remaining) ∨ m'.remaining < m.remaining

theorem spent_storing {note : Option TraceEntry} {ip : UInt64} {target value : Word}
    {m : Machine} {s : σ} (hm : m.steps < m.stepLimit) :
    m.Spent (m.storing note ip target value s).machine := by
  unfold storing
  split
  · exact Or.inr (remaining_complete_lt (m := { m with tape := _ }) hm)
  · exact Or.inl ⟨rfl, rfl⟩

theorem spent_perform {port : Port σ} {i : Instruction} {action : Action} {m : Machine} {s : σ}
    (hm : m.steps < m.stepLimit) : m.Spent (m.perform port i action s).machine := by
  unfold perform
  simp only
  split
  · exact spent_storing hm
  · split
    · exact spent_storing (m := { m with inputs := _ }) hm
    · split
      · exact spent_storing hm
      · exact Or.inl ⟨rfl, rfl⟩
      · exact Or.inl ⟨rfl, rfl⟩
  · split
    · exact Or.inr (remaining_complete_lt (m := { m with lastOutput := _ }) hm)
    · exact Or.inl ⟨rfl, rfl⟩
  · exact Or.inr (remaining_complete_lt hm)
  · exact Or.inr (remaining_complete_lt (m := { m with relativeBase := _ }) hm)
  · exact Or.inr (remaining_complete_lt hm)

/-- Executing an instruction counts nothing, or it uses up a step. -/
theorem spent_execute (port : Port σ) (m : Machine) (s : σ) :
    m.Spent (m.execute port s).machine := by
  unfold execute
  split
  · exact Or.inl ⟨rfl, rfl⟩
  · split
    · exact Or.inl ⟨rfl, rfl⟩
    · rename_i hlimit
      have hm : m.steps < m.stepLimit :=
        UInt64.lt_iff_toNat_lt.2 (Nat.lt_of_not_le fun hle =>
          hlimit (UInt64.le_iff_toNat_le.2 hle))
      split
      · exact spent_perform (m := { m with tape := _ }) hm
      · exact Or.inl ⟨rfl, rfl⟩

/-- A machine is suspended only if the port has no input, and at the cost of nothing. -/
theorem execute_needsInput {port : Port σ} {m : Machine} {s : σ}
    (h : (m.execute port s).answer = .ok .needsInput) :
    (m.execute port s).machine.status = .needsInput ∧
      (m.execute port s).machine.remaining = m.remaining ∧ (port.receive s).1 = .ok none := by
  have hstoring {note : Option TraceEntry} {ip : UInt64} {target value : Word} {m : Machine}
      {s : σ} : (m.storing note ip target value s).answer ≠ .ok .needsInput := by
    unfold storing
    split <;> simp
  unfold execute at h ⊢
  split at h
  · cases h
  · split at h
    · cases h
    · rename_i hm hlimit
      simp only [hm, hlimit, if_false] at h ⊢
      split at h
      · rename_i i action tape _
        unfold perform at h ⊢
        simp only at h ⊢
        split at h
        · exact absurd h hstoring
        · split at h
          · exact absurd h hstoring
          · split at h
            · exact absurd h hstoring
            · rename_i hreceive
              exact ⟨rfl, rfl, congrArg Prod.fst hreceive⟩
            · cases h
        · split at h <;> cases h
        · cases h
        · cases h
        · cases h
      · cases h

/-- Executes one instruction with no input but the machine's own queue. -/
def step (m : Machine) : Turn Status Unit := m.execute Port.detached ()

end Machine

end Intcode
