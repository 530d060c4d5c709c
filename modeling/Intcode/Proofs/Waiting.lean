import Intcode.Proofs.Exchange
import Intcode.Proofs.Faults
import Intcode.Proofs.Operations

/-!
# Machines that wait for input

A machine that says that it needs input stands at an input instruction.  This module proves it for
every machine that can be reached without changing its memory from outside (`Reached`), and finds
out when such a machine has input in its queue nevertheless (`waiting_of_reached`).

The only way to queue input that leaves the status as it is, is a run.  If its first instruction is
completed, the machine does not wait any more; so what is queued stays behind a machine that waits
exactly if the run faults at once and does not use up the queue in doing so (`Strands`).  As long
as no run does that, the queue of a machine that waits is empty.
-/

namespace Intcode.Machine

variable {σ : Type} {m m' : Machine} {port : Port σ} {s s' : σ} {fault : Fault} {status : Status}
  {values : List Word} {op : Operation} {Q : Machine → Prop}

/-! ## Reachable machines -/

/-- Tells whether an operation leaves it to the machine to change its memory. -/
def Operation.IsPlain : Operation → Prop
  | poke _ _ | restore _ => False
  | _ => True

/-- The machines that come about from programs by operations, apart from some that are barred, and
by putting in snapshots of machines that have come about in the same way. -/
inductive Reached (Bars : Machine → Operation → Prop) : Machine → Prop
  /-- A machine is built. -/
  | boot (program : Program) (settings : Settings) : Reached Bars (boot program settings)
  /-- An operation is performed. -/
  | perform {m : Machine} (op : Operation) (h : Reached Bars m) (hplain : op.IsPlain)
    (hbars : ¬ Bars m op) : Reached Bars (op.perform m).2
  /-- A snapshot is put in. -/
  | restore {m source : Machine} (h : Reached Bars m) (hsource : Reached Bars source) :
    Reached Bars (m.restore source.snapshot)

/-! ## What machines keep that wait -/

/-- The machine has a property if it says that it needs input. -/
def Waits (Q : Machine → Prop) (m : Machine) : Prop := m.status = .needsInput → Q m

/-- A property of machines that have just been suspended, and that a fault and a new step limit do
not undo. -/
structure IsKept (Q : Machine → Prop) : Prop where
  /-- It holds of the machines that have just been suspended. -/
  asks : ∀ {m : Machine}, m.Asks → Q m
  /-- No fault undoes it. -/
  faults : ∀ {σ : Type} {port : Port σ} {m m' : Machine} {s s' : σ} {fault : Fault},
    Faults port m s fault m' s' → Q m → Q m'
  /-- No step limit undoes it. -/
  limit : ∀ {m : Machine} (limit : UInt64), Q m → Q { m with stepLimit := limit }

/-- After an instruction that does not fault a machine waits only if it has just been suspended. -/
lemma IsKept.of_ok (hQ : IsKept Q) (h : m.execute port s = ⟨.ok status, m', s'⟩) : m'.Waits Q := by
  intro hneeds
  have hstatus : m'.status = status := status_of_execute_eq h
  have hanswer : (m.execute port s).answer = .ok .needsInput := by
    rw [h, ← hneeds, hstatus]
  have hasks := asks_of_needsInput hanswer
  rw [h] at hasks
  exact hQ.asks hasks

lemma IsKept.execute (hQ : IsKept Q) (h : m.Waits Q) (port : Port σ) (s : σ) :
    (m.execute port s).machine.Waits Q := by
  rcases hexecute : m.execute port s with ⟨fault | status, m', s'⟩
  · have hfaults := faults_of_execute_eq hexecute
    intro hneeds
    have hneeds' : m.status = .needsInput := by rw [← hfaults.status_eq, ← hneeds]
    exact hQ.faults hfaults (h hneeds')
  · exact hQ.of_ok hexecute

lemma IsKept.runWith (hQ : IsKept Q) (h : m.Waits Q) (port : Port σ) (s : σ) :
    (m.runWith port s).machine.Waits Q :=
  machine_runWith (P := Waits Q) (fun _ s h => hQ.execute h port s) h s

/-- If the first instruction of a run does not fault, it does not matter how the machine waited
before. -/
lemma IsKept.runWith_of_ok (hQ : IsKept Q) (h : m.execute port s = ⟨.ok status, m', s'⟩) :
    (m.runWith port s).machine.Waits Q := by
  have hwaits := hQ.of_ok h
  rw [runWith_eq, h]
  cases status with
  | halted => exact hwaits
  | needsInput => exact hwaits
  | running => exact hQ.runWith hwaits port s'
  | hasOutput value => exact hQ.runWith hwaits port s'

/-- A machine that has taken a value does not wait. -/
lemma waits_provideAll (h : m.Waits Q) (values : List Word) :
    (Operation.taking m (m.provideAll values)).2.Waits Q := by
  rcases Operation.taking_cases m values with hrefused | ⟨_, hqueued⟩
  · rw [hrefused]
    exact h
  · rw [hqueued]
    intro hneeds
    change (if m.status = .needsInput then Status.running else m.status) = .needsInput at hneeds
    split at hneeds
    · cases hneeds
    · next hrunning => exact absurd hneeds hrunning

/-- Operations keep how a machine waits, if runs do. -/
lemma IsKept.perform (hQ : IsKept Q) (h : m.Waits Q) (hplain : op.IsPlain)
    (hrun : ∀ values, op = .run values → (m.run values).2.Waits Q) : (op.perform m).2.Waits Q := by
  cases op with
  | step => exact hQ.execute h Port.detached ()
  | run values => exact hrun values rfl
  | runWith port s => exact hQ.runWith h port s
  | provide value => exact waits_provideAll h [value]
  | provideAll values => exact waits_provideAll h values
  | limitSteps limit => exact fun hneeds => hQ.limit limit (h hneeds)
  | reset => exact fun hneeds => nomatch hneeds
  | peek address => exact h
  | snapshot => exact h
  | poke address value => exact hplain.elim
  | restore s => exact hplain.elim

/-! ## Standing at an input instruction -/

/-- The word at which the machine stands is an input instruction. -/
def StandsAtInput (m : Machine) : Prop :=
  ∃ word i, m.peek? (Word.ofCount m.ip) = .ok word ∧ Instruction.decode word = .ok i ∧
    i.opcode = .input

lemma AsksNext.standsAtInput (h : m.AsksNext) : m.StandsAtInput := by
  obtain ⟨i, target, hrequest⟩ := h
  obtain ⟨⟨word, hpeek, hdecode⟩, hopcode⟩ := exists_decode_of_request hrequest
  exact ⟨word, i, hpeek, hdecode, List.mem_singleton.1 hopcode⟩

lemma isKept_asksNext : IsKept AsksNext where
  asks h := h.2.2.2.2
  faults h hnext := by
    obtain ⟨i, target, hrequest⟩ := hnext
    exact ⟨i, target, h.request_eq.trans hrequest⟩
  limit _ h := h

/-- A reached machine that needs input stands at an instruction that asks for it. -/
lemma Reached.asksNext {Bars : Machine → Operation → Prop} (h : Reached Bars m) :
    m.Waits AsksNext := by
  induction h with
  | boot program settings => exact fun hneeds => nomatch hneeds
  | @perform m op h hplain hbars ih =>
    refine isKept_asksNext.perform ih hplain fun values _ => ?_
    -- What is queued makes no difference to the request.
    have hqueue : (m.queue values).Waits AsksNext := ih
    exact isKept_asksNext.runWith hqueue Port.buffered ⟨[], #[]⟩
  | restore h hsource ih ihsource => exact ihsource

/-! ## Input that stays in the queue -/

/-- The queue of the machine is empty. -/
def IsUnfed (m : Machine) : Prop := m.inputs = []

lemma isKept_isUnfed : IsKept IsUnfed where
  asks h := h.2.1
  faults h hempty := by
    have hsuffix := h.inputs_suffix
    rw [hempty] at hsuffix
    exact List.suffix_nil.1 hsuffix
  limit _ h := h

/-- The machine waits, and a run that queues these values faults at once and leaves values in the
queue: no step is left, or there is no place for the first value and there are others. -/
def Strands (m : Machine) (values : List Word) : Prop :=
  m.status = .needsInput ∧
    (m.stepLimit ≤ m.steps ∧ values ≠ [] ∨
      (∃ refusal, m.LacksPlace refusal) ∧ 2 ≤ values.length)

/-- The runs that strand input. -/
def StrandingRun (m : Machine) (op : Operation) : Prop :=
  ∃ values, op = .run values ∧ m.Strands values

/-- A run leaves no input behind a machine that waits, unless it strands some. -/
lemma unfed_run (hnext : m.Waits AsksNext) (hunfed : m.Waits IsUnfed) (h : ¬ m.Strands values) :
    (m.run values).2.Waits IsUnfed := by
  rcases hexecute : (m.queue values).execute Port.buffered ⟨[], #[]⟩ with ⟨fault | status, m', b⟩
  · have hfaults := faults_of_execute_eq hexecute
    rw [hfaults.run_eq]
    intro hneeds
    have hwaits : m.status = .needsInput := by rw [← hneeds, hfaults.status_eq]; rfl
    have hinputs := inputs_queue_of_nil (hunfed hwaits) values
    have hnext' : (m.queue values).AsksNext := hnext hwaits
    by_contra hfed
    rcases hfaults.of_asksNext hnext' with ⟨hlimit, rfl⟩ | ⟨hqueued, rfl, _⟩ |
      ⟨refusal, value, rest, hlacks, hqueued, rfl⟩
    · have hvalues : values ≠ [] := by rwa [IsUnfed, hinputs] at hfed
      exact h ⟨hwaits, Or.inl ⟨hlimit, hvalues⟩⟩
    · exact hfed hqueued
    · have hrest : rest ≠ [] := hfed
      have hlength : 2 ≤ values.length := by
        rw [← hinputs, hqueued, List.length_cons]
        exact Nat.succ_le_succ (List.length_pos_iff.2 hrest)
      exact h ⟨hwaits, Or.inr ⟨⟨refusal, hlacks⟩, hlength⟩⟩
  · exact isKept_isUnfed.runWith_of_ok hexecute

/-- A run that strands input leaves it behind a machine that waits. -/
lemma fed_run (hunfed : m.Waits IsUnfed) (h : m.Strands values) :
    (m.run values).2.status = .needsInput ∧ (m.run values).2.inputs ≠ [] := by
  obtain ⟨hwaits, hcause⟩ := h
  have hinputs := inputs_queue_of_nil (hunfed hwaits) values
  have hhalted : (m.queue values).status ≠ .halted := by
    change m.status ≠ .halted
    rw [hwaits]
    simp
  by_cases hlimit : m.stepLimit ≤ m.steps
  · have hvalues : values ≠ [] := by
      rcases hcause with ⟨_, hvalues⟩ | ⟨_, hlength⟩
      · exact hvalues
      · rintro rfl
        cases hlength
    rw [(Faults.exhausted hhalted hlimit).run_eq, hinputs]
    exact ⟨hwaits, hvalues⟩
  · obtain ⟨⟨refusal, i, target, hrequest, hreach⟩, hlength⟩ :=
      hcause.resolve_left fun hexhausted => hlimit hexhausted.1
    obtain ⟨value, rest, rfl⟩ := List.exists_cons_of_length_pos (Nat.lt_of_succ_le
      (Nat.le_of_succ_le hlength))
    have hrest : rest ≠ [] := List.length_pos_iff.1 (Nat.le_of_succ_le_succ hlength)
    rw [(Faults.spilled ⟨hhalted, hlimit⟩ hrequest hinputs hreach).run_eq]
    exact ⟨hwaits, hrest⟩

/-- As long as no input has been stranded, a reached machine that needs input has none. -/
lemma Reached.unfed (h : Reached StrandingRun m) : m.Waits IsUnfed := by
  induction h with
  | boot program settings => exact fun hneeds => nomatch hneeds
  | perform op h hplain hbars ih =>
    refine isKept_isUnfed.perform ih hplain fun values hrun => ?_
    exact unfed_run h.asksNext ih fun hstrands => hbars ⟨values, hrun, hstrands⟩
  | restore h hsource ih ihsource => exact ihsource

/-- A reached machine that needs input stands at an input instruction.  If no run has stranded input
on its way, nothing is in its queue either, and a run leaves something in the queue of a machine
that waits exactly if it strands it. -/
theorem waiting_of_reached (m : Machine) (h : Reached (fun _ _ => False) m) :
    (m.status = .needsInput → m.StandsAtInput) ∧
      (Reached StrandingRun m →
        (m.status = .needsInput → m.inputs = []) ∧
          ∀ values, m.Strands values ↔
            (m.run values).2.status = .needsInput ∧ (m.run values).2.inputs ≠ []) := by
  refine ⟨fun hneeds => (h.asksNext hneeds).standsAtInput, fun hreached => ⟨hreached.unfed, ?_⟩⟩
  intro values
  constructor
  · intro hstrands
    exact fed_run hreached.unfed hstrands
  · rintro ⟨hneeds, hfed⟩
    by_contra hstrands
    exact hfed (unfed_run hreached.asksNext hreached.unfed hstrands hneeds)

/-- A machine that waits for an input for which there is no place. -/
def cornered : Machine := (boot cornering {}).step.machine

theorem waiting_of_reached_cornered :
    Reached StrandingRun cornered ∧ (cornered.StandsAtInput ∧ cornered.inputs = []) ∧
      cornered.Strands [1, 1] ∧ (cornered.run [1, 1]).2.status = .needsInput ∧
        (cornered.run [1, 1]).2.inputs ≠ [] := by
  have hreached : Reached (fun _ _ => False) cornered :=
    .perform .step (.boot cornering {}) trivial not_false
  have hunstranded : Reached StrandingRun cornered :=
    .perform .step (.boot cornering {}) trivial fun ⟨_, hrun, _⟩ => nomatch hrun
  have hneeds : cornered.status = .needsInput := rfl
  have hstrands : cornered.Strands [1, 1] :=
    ⟨hneeds, Or.inr ⟨⟨.negative .minusOne, _, .minusOne, rfl, rfl⟩, Nat.le_refl 2⟩⟩
  obtain ⟨hstands, hwaiting⟩ := waiting_of_reached cornered hreached
  obtain ⟨hempty, hexactly⟩ := hwaiting hunstranded
  exact ⟨hunstranded, ⟨hstands hneeds, hempty hneeds⟩, hstrands, (hexactly [1, 1]).1 hstrands⟩

/-- A reached machine that needs input may have some in its queue. -/
theorem not_unfed_of_reached :
    ¬ ∀ m : Machine, Reached (fun _ _ => False) m → m.status = .needsInput →
      m.inputs = [] ∧ m.StandsAtInput := by
  intro h
  have hcornered : Reached (fun _ _ => False) cornered :=
    .perform .step (.boot cornering {}) trivial not_false
  have hreached : Reached (fun _ _ => False) (cornered.run [1, 1]).2 :=
    .perform (.run [1, 1]) hcornered trivial not_false
  have hneeds : (cornered.run [1, 1]).2.status = .needsInput := by decide +kernel
  have hfed : (cornered.run [1, 1]).2.inputs ≠ [] := by decide +kernel
  exact hfed (h _ hreached hneeds).1

end Intcode.Machine
