import Intcode.Explorer
import Intcode.Proofs.Completion
import Mathlib.Data.List.Induction

/-!
# Where explorers stand

An explorer keeps a machine that has stopped, how it stopped, and what it emitted on its way.  These
three belong together as long as every advance that fails leaves them as they were
(`parked_after`).  Most do not: an advance runs the machine at the checkpoint itself, and if the run
faults, the machine stays where the fault has found it.

`Explorer.Mars` says exactly when an advance fails and leaves another explorer behind.  If it fails
without doing so, the machine has halted, or the run has lost the only value that it was given
because there was no place for it.
-/

namespace Intcode

namespace Machine

variable {m m' : Machine} {inputs : List Word} {fault : Fault} {refusal : Refusal}

/-- A run on a single value for which there is no place loses the value and does nothing else. -/
lemma Asks.run_single (h : m.Asks) (hlacks : m.LacksPlace refusal) (value : Word) :
    m.run [value] = (.error (refusal.fault m.ip), m) := by
  obtain ⟨hstatus, hinputs, hlimit, hprepared, _⟩ := h
  obtain ⟨i, target, hrequest, hreach⟩ := hlacks
  have hhalted : m.status ≠ .halted := by simp [hstatus]
  have hfaults : Faults Port.buffered (m.queue [value]) ⟨[], #[]⟩ (refusal.fault m.ip)
      { m.prepared with inputs := [] } ⟨[], #[]⟩ :=
    .spilled (m := m.queue [value]) ⟨hhalted, hlimit⟩ hrequest
      (inputs_queue_of_nil hinputs [value]) hreach
  have hmachine : { m.prepared with inputs := [] } = m := by
    rw [hprepared, ← hinputs]
  rw [hfaults.run_eq, hmachine]

/-- A run that faults changes a machine that asks, unless it loses a single value for which there is
no place. -/
lemma Asks.run_ne (h : m.Asks) (hrun : m.run inputs = (.error fault, m'))
    (hlost : ¬ (inputs.length = 1 ∧ ∃ refusal, m.LacksPlace refusal)) : m' ≠ m := by
  obtain ⟨hstatus, hinputs, hlimit, hprepared, hnext⟩ := h
  rcases hturn : (m.queue inputs).runWith Port.buffered ⟨[], #[]⟩ with ⟨fault' | stop, m₁, b⟩
  · rw [run_of_runWith_eq hturn] at hrun
    cases hrun
    have hqueue := inputs_queue_of_nil hinputs inputs
    have hnext' : (m.queue inputs).AsksNext := hnext
    rintro rfl
    rcases faults_or_lt_of_runWith hturn with hfaults | hless
    · rcases hfaults.of_asksNext hnext' with ⟨hexhausted, _⟩ | ⟨_, _, hreceive⟩ |
        ⟨refusal, value, rest, hlacks, hqueued, hmachine⟩
      · exact hlimit hexhausted
      · exact hreceive rfl
      · have hrest : rest = [] := by
          rw [← hinputs, hmachine]
        rw [hqueue, hrest] at hqueued
        exact hlost ⟨by rw [hqueued]; rfl, refusal, hlacks⟩
    · exact Nat.lt_irrefl _ hless
  · rw [run_of_runWith_eq hturn] at hrun
    cases hrun

end Machine

namespace Explorer

variable {m : Machine} {e e₀ : Explorer} {inputs : List Word} {fault : Fault} {calls : List Call}

/-! ## Calls -/

/-- Something that can be asked of an explorer. -/
inductive Call where
  /-- Try some inputs. -/
  | tryInputs (inputs : List Word)
  /-- Try candidates until one is accepted. -/
  | search (accept : Fork → Bool) (candidates : List (List Word))
  /-- Try sequences of moves. -/
  | breadthFirst (moves : List (List Word)) (maxDepth : Nat) (visit : List Nat → Fork → Visit)
  /-- Move the checkpoint forward. -/
  | advance (inputs : List Word)

/-- What a call answers. -/
def Call.Answer : Call → Type
  | tryInputs _ => Except Fault Fork
  | search _ _ => Except Fault (Nat × Option (List Word × Fork))
  | breadthFirst _ _ _ => Finding
  | advance _ => Except Fault (List Word)

/-- The answer to a call and the explorer afterwards. -/
def Call.perform : (call : Call) → Explorer → call.Answer × Explorer
  | tryInputs inputs, e => (e.tryInputs inputs, e)
  | search accept candidates, e => (e.search accept candidates, e)
  | breadthFirst moves maxDepth visit, e => (e.breadthFirst moves maxDepth visit, e)
  | advance inputs, e => e.advance inputs

/-- The explorer after some calls, the first one first. -/
def afterAll (e : Explorer) (calls : List Call) : Explorer :=
  calls.foldl (fun e call => (call.perform e).2) e

lemma afterAll_concat (e : Explorer) (calls : List Call) (call : Call) :
    e.afterAll (calls ++ [call]) = (call.perform (e.afterAll calls)).2 := by
  unfold afterAll
  rw [List.foldl_append]
  rfl

/-! ## Advances -/

/-- What the explorer says of its machine is true: the machine needs input or has halted. -/
def IsParked (e : Explorer) : Prop :=
  e.stop = .awaitingInput ∧ e.checkpoint.status = .needsInput ∨
    e.stop = .halted ∧ e.checkpoint.status = .halted

/-- The machine is as a run has left it that stopped in the way that the explorer says. -/
def IsSettled (e : Explorer) : Prop :=
  e.stop = .awaitingInput ∧ e.checkpoint.Asks ∨ e.stop = .halted ∧ e.checkpoint.status = .halted

lemma IsSettled.isParked (h : e.IsSettled) : e.IsParked :=
  h.imp_left fun ⟨hstop, hasks⟩ => ⟨hstop, hasks.1⟩

lemma IsSettled.asks (h : e.IsSettled) (hhalted : e.checkpoint.status ≠ .halted) :
    e.checkpoint.Asks :=
  (h.resolve_right fun hstop => hhalted hstop.2).2

/-- An advance on some inputs fails and leaves another explorer behind: the machine has not halted,
and the run faults, other than by losing a single value for which there is no place. -/
def Mars (e : Explorer) (inputs : List Word) : Prop :=
  e.checkpoint.status ≠ .halted ∧ (∃ fault, (e.checkpoint.run inputs).1 = .error fault) ∧
    ¬ (inputs.length = 1 ∧ ∃ refusal, e.checkpoint.LacksPlace refusal)

/-- A machine that has halted is not advanced. -/
lemma advance_of_halted (h : e.checkpoint.status = .halted) (inputs : List Word) :
    e.advance inputs = (.error .halted, e) := by
  unfold advance Machine.isHalted
  rw [if_pos (by simpa using h)]

/-- A machine that has not halted is advanced by a run. -/
lemma advance_of_not_halted (h : e.checkpoint.status ≠ .halted) (inputs : List Word) :
    e.advance inputs =
      match e.checkpoint.run inputs with
      | (.ok outcome, machine) => (.ok outcome.outputs, ⟨machine, outcome.outputs, outcome.stop⟩)
      | (.error fault, machine) => (.error fault, { e with checkpoint := machine }) := by
  unfold advance Machine.isHalted
  exact if_neg (by simpa using h)

/-- An advance that succeeds leaves what the run has come to. -/
lemma isSettled_of_advance_ok {outputs : List Word} {e' : Explorer}
    (h : e.advance inputs = (.ok outputs, e')) : e'.IsSettled ∧ e'.outputs = outputs := by
  by_cases hhalted : e.checkpoint.status = .halted
  · rw [advance_of_halted hhalted] at h
    cases h
  · rw [advance_of_not_halted hhalted] at h
    rcases hrun : e.checkpoint.run inputs with ⟨fault | outcome, machine⟩
    · rw [hrun] at h
      cases h
    · rw [hrun] at h
      cases h
      exact ⟨Machine.stopped_of_run hrun, rfl⟩

/-- An advance fails and leaves another explorer behind exactly if it mars. -/
lemma IsSettled.mars_iff (h : e.IsSettled) (inputs : List Word) :
    e.Mars inputs ↔ (∃ fault, (e.advance inputs).1 = .error fault) ∧ (e.advance inputs).2 ≠ e := by
  by_cases hhalted : e.checkpoint.status = .halted
  · rw [advance_of_halted hhalted]
    exact iff_of_false (fun hmars => hmars.1 hhalted) fun hleft => hleft.2 rfl
  · have hasks := h.asks hhalted
    rw [advance_of_not_halted hhalted]
    rcases hrun : e.checkpoint.run inputs with ⟨fault | outcome, machine⟩
    · constructor
      · rintro ⟨_, _, hlost⟩
        refine ⟨⟨fault, rfl⟩, fun hsame => ?_⟩
        exact hasks.run_ne hrun hlost (congrArg checkpoint hsame)
      · rintro ⟨_, hother⟩
        refine ⟨hhalted, ⟨fault, by rw [hrun]⟩, ?_⟩
        rintro ⟨hlength, refusal, hlacks⟩
        obtain ⟨value, rfl⟩ := List.length_eq_one_iff.1 hlength
        rw [hasks.run_single hlacks] at hrun
        cases hrun
        exact hother rfl
    · refine iff_of_false ?_ ?_
      · rintro ⟨_, ⟨fault, hfault⟩, _⟩
        rw [hrun] at hfault
        cases hfault
      · rintro ⟨⟨fault, hfault⟩, _⟩
        cases hfault

/-! ## Sequences of calls -/

/-- No advance among some calls fails and leaves another explorer behind. -/
def Unmarred (e₀ : Explorer) (calls : List Call) : Prop :=
  ∀ earlier inputs later, calls = earlier ++ .advance inputs :: later →
    ¬ (e₀.afterAll earlier).Mars inputs

lemma Unmarred.of_concat {call : Call} (h : Unmarred e₀ (calls ++ [call])) : Unmarred e₀ calls := by
  intro earlier inputs later hcalls
  refine h earlier inputs (later ++ [call]) ?_
  rw [hcalls, List.append_assoc, List.cons_append]

/-- The explorer `e` is the one that was made of a machine by a run without input, or the one that
an advance among the calls has left, with the outputs that the advance has answered. -/
def Led (m : Machine) (e₀ : Explorer) (calls : List Call) (e : Explorer) : Prop :=
  m.run [] = (.ok ⟨e.outputs, e.stop⟩, e.checkpoint) ∨
    ∃ earlier inputs later, calls = earlier ++ .advance inputs :: later ∧
      (e₀.afterAll earlier).advance inputs = (.ok e.outputs, e)

lemma Led.concat (h : Led m e₀ calls e) (call : Call) : Led m e₀ (calls ++ [call]) e := by
  rcases h with hnew | ⟨earlier, inputs, later, hcalls, hadvance⟩
  · exact Or.inl hnew
  · refine Or.inr ⟨earlier, inputs, later ++ [call], ?_, hadvance⟩
    rw [hcalls, List.append_assoc, List.cons_append]

/-- A new explorer is settled, and is the one that was made of the machine. -/
lemma run_of_ofMachine (h : ofMachine m = .ok e) :
    m.run [] = (.ok ⟨e.outputs, e.stop⟩, e.checkpoint) := by
  unfold ofMachine at h
  rcases hrun : m.run [] with ⟨fault | outcome, machine⟩
  · rw [hrun] at h
    cases h
  · rw [hrun] at h
    cases h
    rfl

lemma isSettled_afterAll (hnew : ofMachine m = .ok e₀) (h : Unmarred e₀ calls) :
    (e₀.afterAll calls).IsSettled ∧ Led m e₀ calls (e₀.afterAll calls) := by
  induction calls using List.reverseRecOn with
  | nil =>
    have hrun := run_of_ofMachine hnew
    exact ⟨Machine.stopped_of_run hrun, Or.inl hrun⟩
  | append_singleton calls call ih =>
    obtain ⟨hsettled, hled⟩ := ih h.of_concat
    rw [afterAll_concat]
    cases call with
    | tryInputs | search | breadthFirst => exact ⟨hsettled, hled.concat _⟩
    | advance inputs =>
      change (Explorer.advance inputs _).2.IsSettled ∧ Led m e₀ _ (Explorer.advance inputs _).2
      rcases hadvance : (e₀.afterAll calls).advance inputs with ⟨fault | outputs, e'⟩
      · -- The advance has failed without marring, so nothing has changed.
        have hmars : ¬ (e₀.afterAll calls).Mars inputs := h calls inputs [] rfl
        have hsame : e' = e₀.afterAll calls := by
          by_contra hother
          rw [hsettled.mars_iff, hadvance] at hmars
          exact hmars ⟨⟨fault, rfl⟩, hother⟩
        rw [hsame]
        exact ⟨hsettled, hled.concat _⟩
      · obtain ⟨hsettled', houtputs⟩ := isSettled_of_advance_ok hadvance
        refine ⟨hsettled', Or.inr ⟨calls, inputs, [], rfl, ?_⟩⟩
        rw [hadvance, houtputs]

/-- As long as no advance mars an explorer, what it says of its machine is true, and its outputs are
those of the call that led to the checkpoint; and an advance fails and leaves another explorer
behind exactly if it mars. -/
theorem parked_after (m : Machine) (e₀ : Explorer) (hnew : ofMachine m = .ok e₀)
    (calls : List Call) (h : Unmarred e₀ calls) :
    (e₀.afterAll calls).IsParked ∧ Led m e₀ calls (e₀.afterAll calls) ∧
      ∀ inputs, (e₀.afterAll calls).Mars inputs ↔
        (∃ fault, ((e₀.afterAll calls).advance inputs).1 = .error fault) ∧
          ((e₀.afterAll calls).advance inputs).2 ≠ e₀.afterAll calls := by
  obtain ⟨hsettled, hled⟩ := isSettled_afterAll hnew h
  exact ⟨hsettled.isParked, hled, hsettled.mars_iff⟩

/-- A machine that is about to take an input to a negative address. -/
def cornering : Machine := Machine.boot Machine.cornering {}

/-- An explorer at a request for an input for which there is no place. -/
def cornered : Explorer := ⟨cornering.step.machine, [], .awaitingInput⟩

theorem parked_after_cornered :
    (ofMachine cornering = .ok cornered ∧ Unmarred cornered [.advance [1]] ∧
        (cornered.advance [1]).1 = .error (.negativeAddress .minusOne 0)) ∧
      (cornered.afterAll [.advance [1]]).IsParked ∧
        Led cornering cornered [.advance [1]] (cornered.afterAll [.advance [1]]) := by
  have hnew : ofMachine cornering = .ok cornered := by decide +kernel
  have hfault : (cornered.advance [1]).1 = .error (.negativeAddress .minusOne 0) := by
    decide +kernel
  have hunmarred : Unmarred cornered [.advance [1]] := by
    intro earlier inputs later hcalls hmars
    cases earlier with
    | nil =>
      cases hcalls
      exact hmars.2.2 ⟨rfl, .negative .minusOne, _, .minusOne, rfl, rfl⟩
    | cons call earlier => simp at hcalls
  obtain ⟨hparked, hled, _⟩ := parked_after cornering cornered hnew [.advance [1]] hunmarred
  exact ⟨⟨hnew, hunmarred, hfault⟩, hparked, hled⟩

/-- A machine that is about to take an input, behind which there is no instruction. -/
def dooming : Machine := Machine.boot ⟨#[Word.ofCount 3, 0]⟩ {}

/-- An explorer at a request for an input behind which there is no instruction. -/
def doomed : Explorer := ⟨dooming.step.machine, [], .awaitingInput⟩

/-- Not every explorer says the truth of its machine. -/
theorem not_parked_after :
    ¬ ∀ (m : Machine) (e₀ : Explorer), ofMachine m = .ok e₀ → ∀ calls : List Call,
      (e₀.afterAll calls).IsParked ∧ Led m e₀ calls (e₀.afterAll calls) ∧
        ∀ inputs fault, ((e₀.afterAll calls).advance inputs).1 = .error fault →
          ((e₀.afterAll calls).advance inputs).2 = e₀.afterAll calls := by
  intro h
  have hnew : ofMachine dooming = .ok doomed := by decide +kernel
  have hstop : (doomed.afterAll [.advance [1]]).stop = .awaitingInput := by decide +kernel
  have hstatus : (doomed.afterAll [.advance [1]]).checkpoint.status = .running := by
    decide +kernel
  rcases (h _ _ hnew [.advance [1]]).1 with ⟨_, hneeds⟩ | ⟨hhalted, _⟩
  · rw [hstatus] at hneeds
    cases hneeds
  · rw [hstop] at hhalted
    cases hhalted

end Explorer

end Intcode
