import Intcode.Proofs.InputArrival
import Intcode.Proofs.Stage

/-!
# What an instruction has to do with its port

An instruction uses its port at most once: it asks for a value, sends one, or leaves the port alone,
and its answer tells which (`used_execute`).

A machine that has been suspended stands at an input instruction whose cells it has kept
(`asks_of_needsInput`).  Executing the instruction again is asking the port again, and if there is
still no value, the machine is what it was (`Asks.execute_of_receive`).
-/

namespace Intcode

/-- An answer that an instruction gives without being refused by its port. -/
inductive Settles : Except Fault Status → Prop
  | running : Settles (.ok .running)
  | halted : Settles (.ok .halted)
  | fault {fault : Fault} (h : fault ≠ .channelClosed) : Settles (.error fault)

/-- What an instruction that asks its port for a value may answer, and the port afterwards. -/
inductive Port.Asked {σ : Type} (port : Port σ) (s : σ) : Except Fault Status → σ → Prop
  | received {value : Word} {answer : Except Fault Status} {s' : σ}
    (hreceive : port.receive s = (.ok (some value), s')) (h : Settles answer) :
    Asked port s answer s'
  | suspended {s' : σ} (hreceive : port.receive s = (.ok none, s')) :
    Asked port s (.ok .needsInput) s'
  | refused {fault : Fault} {s' : σ} (hreceive : port.receive s = (.error fault, s')) :
    Asked port s (.error fault) s'

/-- What an instruction may answer, and the port afterwards. -/
inductive Port.Used {σ : Type} (port : Port σ) (s : σ) : Except Fault Status → σ → Prop
  | alone {answer : Except Fault Status} (h : Settles answer) : Used port s answer s
  | asked {answer : Except Fault Status} {s' : σ} (h : port.Asked s answer s') :
    Used port s answer s'
  | sent {value : Word} {s' : σ} (hsend : port.send value s = (.ok (), s')) :
    Used port s (.ok (.hasOutput value)) s'
  | unsent {value : Word} {fault : Fault} {s' : σ}
    (hsend : port.send value s = (.error fault, s')) :
    Used port s (.error fault) s'

namespace Machine

open EndlessMachine

variable {σ : Type} {m : Machine}

/-! ## One use at most -/

/-- Going on with a value settles the answer. -/
lemma settles_receive (x : EndlessMachine) {resumed : Except Fault EndlessMachine}
    (h : Owns resumed) (s : σ) : Settles (receive x resumed s).1 := by
  cases resumed with
  | ok next => exact .running
  | error fault => exact .fault fun hclosed => h (congrArg Except.error hclosed)

lemma port_receive (x : EndlessMachine) (resumed : Except Fault EndlessMachine) (s : σ) :
    (receive x resumed s).2.2 = s := by
  cases resumed <;> rfl

/-- Carrying out what an instruction comes to uses the port once at most. -/
lemma used_carryOut (port : Port σ) (x : EndlessMachine) {outcome : Except Fault Effect}
    (h : OwnsEffect outcome) (s : σ) :
    port.Used s (carryOut port x outcome s).1 (carryOut port x outcome s).2.2 := by
  obtain ⟨howns, hresume⟩ := h
  unfold carryOut
  rcases outcome with fault | (next | next | ⟨value, next⟩ | resume)
  · exact .alone (.fault fun hclosed => howns (congrArg Except.error hclosed))
  · exact .alone .running
  · exact .alone .halted
  · rcases hsend : port.send value s with ⟨fault | _, s'⟩
    · simp only [hsend]
      exact .unsent hsend
    · simp only [hsend]
      exact .sent hsend
  · have hsettles (value : Word) (x : EndlessMachine) (s : σ) :=
      settles_receive x (hresume resume rfl value) s
    simp only
    cases x.inputs with
    | cons value rest =>
      simp only
      rw [port_receive]
      exact .alone (hsettles value _ s)
    | nil =>
      rcases hreceive : port.receive s with ⟨fault | _ | value, s'⟩
      · exact .asked (.refused hreceive)
      · exact .asked (.suspended hreceive)
      · simp only
        rw [port_receive]
        exact .asked (.received hreceive (hsettles value x s'))

/-- An instruction uses its port once at most. -/
lemma used_execute (port : Port σ) (m : Machine) (s : σ) :
    port.Used s (m.execute port s).answer (m.execute port s).port := by
  have hexecute := endless_execute port m s
  have hanswer : (m.execute port s).answer = (m.endless.execute port s).1 :=
    congrArg Prod.fst hexecute
  have hport : (m.execute port s).port = (m.endless.execute port s).2.2 :=
    congrArg (fun result => result.2.2) hexecute
  rw [hanswer, hport]
  unfold EndlessMachine.execute
  split
  · exact .alone .halted
  · exact used_carryOut port m.endless (ownsEffect_react m.endless) s

/-! ## Asking again -/

/-- The machine stands at an input instruction for which it has no value, and has kept the cells
that the instruction reads. -/
def Asks (m : Machine) : Prop :=
  m.status = .needsInput ∧ m.inputs = [] ∧ ¬ m.stepLimit ≤ m.steps ∧ m.prepared = m ∧
    ∃ i target, m.request = .ok (i, .receive target)

lemma answer_storing_ne_needsInput {note : Option TraceEntry} {ip : UInt64} {target value : Word}
    {s : σ} : (m.storing note ip target value s).answer ≠ .ok .needsInput := by
  unfold storing
  split <;> simp

/-- Only an input instruction suspends a machine, and only if nothing is queued. -/
lemma perform_needsInput {port : Port σ} {i : Instruction} {action : Action} {s : σ}
    (h : (m.perform port i action s).answer = .ok .needsInput) :
    (m.perform port i action s).machine = { m with status := .needsInput } ∧ m.inputs = [] ∧
      ∃ target, action = .receive target := by
  unfold perform at h ⊢
  cases action with
  | store target value => exact absurd h answer_storing_ne_needsInput
  | receive target =>
    cases hinputs : m.inputs with
    | cons value rest =>
      simp only [hinputs] at h
      exact absurd h answer_storing_ne_needsInput
    | nil =>
      simp only [hinputs] at h ⊢
      rcases hreceive : port.receive s with ⟨fault | _ | value, s'⟩
      · simp only [hreceive] at h
        cases h
      · simp only
        exact ⟨trivial, trivial, target, rfl⟩
      · simp only [hreceive] at h
        exact absurd h answer_storing_ne_needsInput
  | emit value =>
    simp only at h
    split at h <;> cases h
  | jump destination => cases h
  | rebase base => cases h
  | halt => cases h

/-- A machine that has been suspended asks. -/
lemma asks_of_needsInput {port : Port σ} {s : σ}
    (h : (m.execute port s).answer = .ok .needsInput) : (m.execute port s).machine.Asks := by
  unfold execute at h ⊢
  split at h
  · cases h
  · next hm =>
    split at h
    · cases h
    · next hlimit =>
      rw [if_neg hm, if_neg hlimit]
      have hagain := Access.prepare_again m
      rcases hrun : (Access.prepare m.ip m.relativeBase).run m.tape with ⟨fault | ⟨i, action⟩, tape⟩
      · rw [hrun] at h
        cases h
      · rw [hrun] at h hagain
        simp only at h hagain ⊢
        obtain ⟨hmachine, hinputs, target, rfl⟩ := perform_needsInput h
        rw [hmachine]
        refine ⟨rfl, hinputs, hlimit, ?_, i, target, ?_⟩
        · unfold prepared
          simp only [hagain]
        · unfold request
          simp only [hagain]

/-- A machine that asks executes an input instruction. -/
lemma Asks.execute_eq (h : m.Asks) (port : Port σ) (s : σ) :
    ∃ i target, m.execute port s = m.perform port i (.receive target) s ∧ m.inputs = [] := by
  obtain ⟨hstatus, hinputs, hlimit, hprepared, i, target, hrequest⟩ := h
  have hrun : (Access.prepare m.ip m.relativeBase).run m.tape =
      (.ok (i, .receive target), m.tape) :=
    Prod.ext hrequest (congrArg tape hprepared)
  refine ⟨i, target, ?_, hinputs⟩
  unfold execute
  rw [if_neg (by simp [hstatus]), if_neg hlimit, hrun]

/-- A machine that asks in vain does not change. -/
lemma Asks.execute_of_receive (h : m.Asks) {port : Port σ} {s s' : σ}
    (hreceive : port.receive s = (.ok none, s')) :
    m.execute port s = ⟨.ok .needsInput, m, s'⟩ := by
  obtain ⟨i, target, hexecute, hinputs⟩ := h.execute_eq port s
  have hstatus : m.status = .needsInput := h.1
  rw [hexecute]
  simp only [perform, hinputs, hreceive]
  rw [← hstatus, ← hinputs]

/-- All that a machine does which asks is to ask its port. -/
lemma Asks.asked (h : m.Asks) (port : Port σ) (s : σ) :
    port.Asked s (m.execute port s).answer (m.execute port s).port := by
  obtain ⟨i, target, hexecute, hinputs⟩ := h.execute_eq port s
  rcases hreceive : port.receive s with ⟨fault | _ | value, s'⟩
  · rw [hexecute]
    simp only [perform, hinputs, hreceive]
    exact .refused hreceive
  · rw [h.execute_of_receive hreceive]
    exact .suspended hreceive
  · rw [hexecute]
    simp only [perform, hinputs, hreceive, storing]
    split
    · exact .received hreceive .running
    · next refusal _ _ =>
      refine .received hreceive (.fault ?_)
      cases refusal <;> simp [Refusal.fault]

end Machine

end Intcode
