import Intcode.Proofs.Agreement
import Intcode.Proofs.Completion
import Intcode.Proofs.Pooling
import Mathlib.Data.List.Forall2

/-!
# Stages without feedback

Without feedback an amplifier whose stages take turns is the composition of its stages: each stage
might as well be run once, from the beginning, on its phase and all that the stage before it emits
(`runScheduled_eq_relay`).

In the first round every stage has its turn after the stage that feeds it, so that the round goes
along the list of stages like the runs one after another do (`round_eq_cascade`).  When it is over,
each stage has halted, or it asks in vain for input that nobody sends any more, and a second round
changes nothing.
-/

namespace Intcode.Amplifier

/-! ## One run after another -/

/-- The outcomes of machines that are run one after another, alike at the beginning: there is one
for each phase, and it is run on the phase and, behind it, what has been handed to it.  What it
emits is handed to the next one.  The first fault ends everything. -/
def relay (m : Machine) : List Word → List Word → Except Fault (List Outcome)
  | _, [] => .ok []
  | handed, phase :: phases => do
    let outcome ← (m.run (phase :: handed)).1
    let outcomes ← relay m outcome.outputs phases
    return outcome :: outcomes

/-- What runs one after another amount to: the fault that has ended them, or what the last machine
has emitted last, if all machines have halted. -/
def verdict : Except Fault (List Outcome) → Except Error Word
  | .error fault => .error (.fault fault)
  | .ok outcomes =>
    if outcomes.all fun outcome => outcome.stop = .halted then
      match outcomes.getLast?.bind fun outcome => outcome.outputs.getLast? with
      | some value => .ok value
      | none => .error .noOutput
    else .error .deadlock

end Intcode.Amplifier

namespace Intcode.Machine

variable {m m' : Machine} {b b' : Buffer} {status : Status} {stop : Stop}

/-- If the last value in a buffer is what the machine has emitted last, it is so after an
instruction. -/
lemma lastOutput_of_execute_eq (h : m.execute Port.buffered b = ⟨.ok status, m', b'⟩)
    (hlast : m.lastOutput = b.outputs.toList.getLast?) :
    m'.lastOutput = b'.outputs.toList.getLast? := by
  rcases b with ⟨waiting, outputs⟩
  rcases completes_of_execute_eq h with hcompletes | ⟨_, hsuspends⟩ | hrests
  · cases hcompletes with
    | stores | takes | jumps | rebases | halts => exact hlast
    | receives hready hrequest hinputs hreceive hreach =>
      cases waiting with
      | nil => cases hreceive
      | cons value rest =>
        cases hreceive
        exact hlast
    | emits hready hrequest hsend =>
      cases hsend
      change some _ = (outputs.push _).toList.getLast?
      rw [Array.toList_push, List.getLast?_concat]
  · obtain ⟨_, _, _, hreceive, rfl⟩ := hsuspends
    cases waiting with
    | nil =>
      cases hreceive
      exact hlast
    | cons value rest => cases hreceive
  · obtain ⟨_, _, rfl, rfl⟩ := hrests
    exact hlast

/-- If the last value in a buffer is what the machine has emitted last, it is so after a run. -/
lemma lastOutput_of_runWith_eq (h : m.runWith Port.buffered b = ⟨.ok stop, m', b'⟩)
    (hlast : m.lastOutput = b.outputs.toList.getLast?) :
    m'.lastOutput = b'.outputs.toList.getLast? := by
  induction m, b using runWith_induction Port.buffered with
  | fault m b fault m₁ b₁ hturn hrun =>
    rw [hrun] at h
    cases h
  | stop m b stop m₁ b₁ hturn hrun =>
    rw [hrun] at h
    cases h
    exact lastOutput_of_execute_eq hturn hlast
  | step m b status m₁ b₁ hturn _ _ hrun ih =>
    exact ih (hrun ▸ h) (lastOutput_of_execute_eq hturn hlast)

/-- A machine that asks is suspended at once by a run in front of an empty buffer. -/
lemma Asks.runWith_empty (h : m.Asks) (outputs : Array Word) :
    m.runWith Port.buffered ⟨[], outputs⟩ = ⟨.ok .awaitingInput, m, ⟨[], outputs⟩⟩ := by
  have hreceive : Port.buffered.receive ⟨[], outputs⟩ = (.ok none, ⟨[], outputs⟩) := rfl
  exact runWith_of_stop (h.execute_of_receive hreceive)

end Intcode.Machine

namespace Intcode.Amplifier

open Machine

namespace Scheduled

variable {s : Stage} {handed : List Word} {fault : Fault}

/-! ## A round along the list -/

/-- The stage after its turn. -/
def afterTurn (s : Stage) (stop : Stop) : Stage :=
  ⟨(runOf s).machine, (runOf s).port.inputs, stop = .halted⟩

/-- The turns of some stages in order, when values have been handed to the first one.  What the last
one emits is lost. -/
def cascade : List Word → List Stage → Except Fault (List Stage × Bool)
  | _, [] => .ok ([], false)
  | handed, s :: rest =>
    let s := deliver handed s
    if s.halted then (cascade [] rest).map fun after => (s :: after.1, after.2)
    else
      match (runOf s).answer with
      | .error fault => .error fault
      | .ok stop =>
        (cascade (runOf s).port.outputs.toList rest).map fun after =>
          (afterTurn s stop :: after.1,
            decide ((runOf s).machine.steps ≠ s.machine.steps) || after.2)

/-- A stage that has halted is passed over. -/
lemma cascade_of_halted (rest : List Stage) (h : (deliver handed s).halted = true) :
    cascade handed (s :: rest) =
      (cascade [] rest).map fun after => (deliver handed s :: after.1, after.2) := if_pos h

/-- A stage that faults ends everything. -/
lemma cascade_of_fault (rest : List Stage) (h : (deliver handed s).halted = false)
    (hanswer : (runOf (deliver handed s)).answer = .error fault) :
    cascade handed (s :: rest) = .error fault := by
  rw [cascade]
  simp only [h, hanswer]
  rfl

/-- A stage that makes a run hands on what it has emitted. -/
lemma cascade_of_run {stop : Stop} (rest : List Stage) (h : (deliver handed s).halted = false)
    (hanswer : (runOf (deliver handed s)).answer = .ok stop) :
    cascade handed (s :: rest) =
      (cascade (runOf (deliver handed s)).port.outputs.toList rest).map fun after =>
        (afterTurn (deliver handed s) stop :: after.1,
          decide ((runOf (deliver handed s)).machine.steps ≠ (deliver handed s).machine.steps) ||
            after.2) := by
  rw [cascade]
  simp only [h, hanswer]
  rfl

lemma deliver_nil (s : Stage) : deliver [] s = s := by
  unfold deliver
  split
  · rfl
  · rw [List.append_nil]

lemma modifyHead_deliver_nil (stages : List Stage) : stages.modifyHead (deliver []) = stages := by
  cases stages with
  | nil => rfl
  | cons s rest => rw [List.modifyHead_cons, deliver_nil]

/-- Modifying a list behind some elements modifies the next one. -/
lemma modify_length_append (done rest : List Stage) (s : Stage) (f : Stage → Stage) :
    (done ++ s :: rest).modify done.length f = done ++ f s :: rest := by
  rw [List.modify_eq_take_cons_drop (by simp)]
  simp

/-- Without feedback a run is handed over to the head of the stages that have not had their turns
yet. -/
lemma handOver_append (done rest : List Stage) (s : Stage) (stop : Stop) :
    handOver false (done ++ s :: rest) done.length (runOf s) stop =
      (done ++ [afterTurn s stop]) ++ rest.modifyHead (deliver (runOf s).port.outputs.toList) := by
  have hset : (done ++ s :: rest).set done.length
      ⟨(runOf s).machine, (runOf s).port.inputs, stop = .halted⟩ =
        (done ++ [afterTurn s stop]) ++ rest := by
    simp [afterTurn]
  unfold handOver receiver?
  rw [hset]
  cases rest with
  | nil => simp
  | cons next rest =>
    have hlength : done.length + 1 = (done ++ [afterTurn s stop]).length := by simp
    rw [if_pos (by simp), List.modifyHead_cons]
    change List.modify _ (done.length + 1) _ = _
    rw [hlength, modify_length_append]

/-- The turns of a round, from some stage on, go along the list. -/
lemma foldlM_turn (done rest : List Stage) (handed : List Word) (progressed : Bool) :
    (List.range' done.length rest.length).foldlM (turn false)
        (done ++ rest.modifyHead (deliver handed), progressed) =
      (cascade handed rest).map fun after => (done ++ after.1, progressed || after.2) := by
  induction rest generalizing done handed progressed with
  | nil =>
    rw [List.modifyHead_nil, cascade, Except.map, Bool.or_false, List.append_nil]
    rfl
  | cons first rest ih =>
    have hs :
        (done ++ deliver handed first :: rest)[done.length]? = some (deliver handed first) := by
      simp
    rw [List.length_cons, List.range'_succ, List.foldlM_cons, List.modifyHead_cons]
    cases hhalted : (deliver handed first).halted with
    | true =>
      -- The stage lets its turn pass, and nothing is handed on.
      have hrest := ih (done ++ [deliver handed first]) [] progressed
      rw [modifyHead_deliver_nil, List.length_append, List.append_assoc] at hrest
      rw [turn_of_halted progressed hs hhalted, cascade_of_halted rest hhalted]
      refine hrest.trans ?_
      cases cascade [] rest with
      | error fault => rfl
      | ok after => simp [Except.map]
    | false =>
      rw [turn_eq progressed hs hhalted]
      cases hanswer : (runOf (deliver handed first)).answer with
      | error fault =>
        rw [cascade_of_fault rest hhalted hanswer]
        rfl
      | ok stop =>
        have hrest := ih (done ++ [afterTurn (deliver handed first) stop])
          (runOf (deliver handed first)).port.outputs.toList
          (progressed || (runOf (deliver handed first)).machine.steps ≠
            (deliver handed first).machine.steps)
        rw [← handOver_append, List.length_append] at hrest
        rw [cascade_of_run rest hhalted hanswer]
        refine hrest.trans ?_
        cases cascade (runOf (deliver handed first)).port.outputs.toList rest with
        | error fault => rfl
        | ok after => simp [Except.map, Bool.or_assoc]

/-- Without feedback a round goes along the list. -/
lemma round_eq_cascade (stages : List Stage) : round false stages = cascade [] stages := by
  have hround := foldlM_turn [] stages [] false
  rw [modifyHead_deliver_nil] at hround
  unfold round
  rw [List.range_eq_range']
  refine hround.trans ?_
  cases cascade [] stages with
  | error fault => rfl
  | ok after => rfl

/-! ## What a stage shows after its turn -/

/-- Tells that a stage is what a run with some outcome leaves.  It is marked if the run has halted,
and the machine has emitted last what the run has emitted last.  If it is not marked, it asks for
input, and none is waiting. -/
structure Shows (s : Stage) (outcome : Outcome) : Prop where
  /-- The mark. -/
  halted : s.halted = decide (outcome.stop = .halted)
  /-- What has been emitted last. -/
  lastOutput : s.machine.lastOutput = outcome.outputs.getLast?
  /-- Nothing is left to do. -/
  settled : s.halted = false → s.machine.Asks ∧ s.inbox = []

/-- A run in front of a buffer that is suspended has used up the buffer. -/
lemma settled_of_runWith {m m' : Machine} {b b' : Buffer}
    (h : m.runWith Port.buffered b = ⟨.ok .awaitingInput, m', b'⟩) :
    m'.Asks ∧ b'.inputs = [] := by
  obtain ⟨m₁, b₁, hlast⟩ := exists_execute_of_runWith h
  have hasks := asks_of_needsInput (congrArg Turn.answer hlast)
  have hreceive := (execute_needsInput (congrArg Turn.answer hlast)).2.2
  rw [hlast] at hasks
  refine ⟨hasks, ?_⟩
  rcases completes_of_execute_eq hlast with hcompletes | ⟨_, hsuspends⟩ | hrests
  · cases hcompletes
  · rcases b₁ with ⟨_ | ⟨value, rest⟩, outputs⟩
    · cases hsuspends.receive
      rfl
    · cases hreceive
  · cases hrests.status

lemma runWith_of_answer {stop : Stop} (hanswer : (runOf s).answer = .ok stop) :
    s.machine.runWith Port.buffered ⟨s.inbox, #[]⟩ =
      ⟨.ok stop, (runOf s).machine, (runOf s).port⟩ := by
  rw [← hanswer]
  rfl

/-- After the turn of a stage that has emitted nothing before it, the stage shows the outcome of a
run on what was waiting for it. -/
lemma shows_afterTurn {stop : Stop} (hlast : s.machine.lastOutput = none)
    (hanswer : (runOf s).answer = .ok stop) :
    Shows (afterTurn s stop) ⟨(runOf s).port.outputs.toList, stop⟩ where
  halted := rfl
  lastOutput := lastOutput_of_runWith_eq (runWith_of_answer hanswer) hlast
  settled hlive := by
    cases stop with
    | halted => cases hlive
    | awaitingInput => exact settled_of_runWith (runWith_of_answer hanswer)

/-- A round changes nothing of stages that show outcomes. -/
lemma cascade_of_shows {stages : List Stage} {outcomes : List Outcome}
    (h : List.Forall₂ Shows stages outcomes) : cascade [] stages = .ok (stages, false) := by
  induction h with
  | nil => rfl
  | @cons s outcome stages outcomes hshows _ ih =>
    have hsame : deliver [] s = s := deliver_nil s
    cases hhalted : s.halted with
    | true =>
      rw [cascade_of_halted stages (hsame.symm ▸ hhalted), ih, hsame]
      rfl
    | false =>
      obtain ⟨hasks, hinbox⟩ := hshows.settled hhalted
      have hrun : runOf s = ⟨.ok .awaitingInput, s.machine, ⟨[], #[]⟩⟩ := by
        unfold runOf
        rw [hinbox]
        exact hasks.runWith_empty #[]
      have hafter : afterTurn s .awaitingInput = s := by
        unfold afterTurn
        rw [hrun, ← hinbox]
        rcases s with ⟨machine, inbox, halted⟩
        cases hhalted
        rfl
      have hanswer : (runOf (deliver [] s)).answer = .ok .awaitingInput := by rw [hsame, hrun]
      rw [cascade_of_run stages (hsame.symm ▸ hhalted) hanswer, hsame, hafter, hrun, ih]
      simp [Except.map]

/-- What stages and outcomes have in common. -/
lemma map_eq_map_of_shows {α : Type} {stages : List Stage} {outcomes : List Outcome}
    {f : Stage → α} {g : Outcome → α} (h : List.Forall₂ Shows stages outcomes)
    (hcommon : ∀ s outcome, Shows s outcome → f s = g outcome) :
    stages.map f = outcomes.map g := by
  rw [← List.forall₂_eq_eq_eq, List.forall₂_map_left_iff, List.forall₂_map_right_iff]
  exact h.imp hcommon

/-- The signal of stages that show outcomes. -/
lemma verdict_of_shows {stages : List Stage} {outcomes : List Outcome}
    (h : List.Forall₂ Shows stages outcomes) :
    verdict (.ok outcomes) =
      if stages.all Stage.halted then signal stages else .error .deadlock := by
  have hmarks : stages.map Stage.halted = outcomes.map fun o => decide (o.stop = .halted) :=
    map_eq_map_of_shows h fun _ _ hshows => hshows.halted
  have hvalues : (stages.map fun s => s.machine.lastOutput) =
      outcomes.map fun outcome => outcome.outputs.getLast? :=
    map_eq_map_of_shows h fun _ _ hshows => hshows.lastOutput
  have hall : stages.all Stage.halted = outcomes.all fun o => decide (o.stop = .halted) := by
    have hmap := congrArg (fun marks : List Bool => marks.all id) hmarks
    simpa [List.all_map] using hmap
  have hlast : (stages.getLast?.bind fun s => s.machine.lastOutput) =
      outcomes.getLast?.bind fun outcome => outcome.outputs.getLast? := by
    have hmap := congrArg (fun values => values.getLast?.bind id) hvalues
    simpa [List.getLast?_map, Option.bind_map] using hmap
  unfold verdict signal
  rewrite [hall, hlast]
  rfl

/-! ## Two rounds -/

/-- A stage that has nothing but its phase. -/
def fresh (m : Machine) (phase : Word) : Stage := ⟨m, [phase], false⟩

lemma deliver_fresh (m : Machine) (handed : List Word) (phase : Word) :
    deliver handed (fresh m phase) = ⟨m, phase :: handed, false⟩ := rfl

/-- What the turns of fresh stages come to, told from the runs one after another: the same fault, or
stages that show the outcomes.  If no instruction has been counted, no stage has halted. -/
inductive Mirrors : Except Fault (List Outcome) → Except Fault (List Stage × Bool) → Prop
  | fault (fault : Fault) : Mirrors (.error fault) (.error fault)
  | stages {outcomes : List Outcome} {stages : List Stage} {progressed : Bool}
    (hshows : List.Forall₂ Shows stages outcomes)
    (hidle : progressed = false → ∀ s ∈ stages, s.halted = false) :
    Mirrors (.ok outcomes) (.ok (stages, progressed))

/-- The turns of fresh stages mirror the runs one after another. -/
lemma mirrors_cascade {m : Machine} (hm : m.status ≠ .halted) (hlast : m.lastOutput = none)
    (handed phases : List Word) :
    Mirrors (relay m handed phases) (cascade handed (phases.map (fresh m))) := by
  induction phases generalizing handed with
  | nil => exact .stages .nil fun _ => List.forall_mem_nil _
  | cons phase phases ih =>
    have hdeliver := deliver_fresh m handed phase
    have hlive : (deliver handed (fresh m phase)).halted = false := rfl
    rw [List.map_cons, relay, run_eq]
    change Mirrors (((runOf ⟨m, phase :: handed, false⟩).answer.map _) >>= _) _
    cases hanswer : (runOf ⟨m, phase :: handed, false⟩).answer with
    | error fault =>
      rw [cascade_of_fault _ hlive hanswer]
      exact .fault fault
    | ok stop =>
      rw [cascade_of_run _ hlive hanswer, hdeliver]
      set run := runOf ⟨m, phase :: handed, false⟩
      change Mirrors (relay m run.port.outputs.toList phases >>= fun outcomes =>
        .ok (⟨run.port.outputs.toList, stop⟩ :: outcomes)) _
      have hrest := ih run.port.outputs.toList
      generalize relay m run.port.outputs.toList phases = told at hrest ⊢
      generalize cascade run.port.outputs.toList (phases.map (fresh m)) = turned at hrest ⊢
      cases hrest with
      | fault fault => exact .fault fault
      | @stages outcomes stages progressed hshows hidle =>
        refine .stages (.cons (shows_afterTurn hlast hanswer) hshows) fun hno => ?_
        obtain ⟨hsteps, hrest⟩ := Bool.or_eq_false_iff.1 hno
        have hwaits := (runWith_buffered_of_steps_eq hm hanswer
          (not_not.1 (of_decide_eq_false hsteps))).1
        refine List.forall_mem_cons.2 ⟨?_, hidle hrest⟩
        rw [hwaits]
        rfl

/-- The stages of an amplifier are fresh, and the signal has been handed to the first one. -/
lemma cascade_stages (a : Amplifier) :
    cascade [] (Scheduled.stages a) =
      cascade [a.settings.initialSignal] (a.phases.map (fresh a.stageMachine)) := by
  unfold Scheduled.stages firstInputs
  cases a.phases with
  | nil => rfl
  | cons phase phases =>
    have hrest : (phases.map fun phase => [phase]).map
        (fun inbox => Stage.mk a.stageMachine inbox false) = phases.map (fresh a.stageMachine) := by
      rw [List.map_map]
      rfl
    simp only [List.map_cons, hrest]
    rfl

/-- What stages that have not halted come to, if the first round mirrors runs one after another. -/
lemma eq_of_rounds {stages : List Stage} {told : Except Fault (List Outcome)} {count : Nat}
    {result : Except Error Word} (hsound : Sound stages) (hlive : stages.all Stage.halted = false)
    (hmirrors : Mirrors told (round false stages)) (h : rounds false count stages = some result) :
    result = verdict told := by
  cases count with
  | zero => cases h
  | succ count =>
    unfold rounds at h
    rw [if_neg (by simp [hlive])] at h
    cases hround : round false stages with
    | error fault =>
      rw [hround] at h hmirrors
      cases hmirrors
      cases h
      rfl
    | ok after =>
      obtain ⟨after, progressed⟩ := after
      have hlength : after.length = stages.length :=
        (turned_foldlM hsound (Nat.le_refl _) hround).length
      rw [hround] at h hmirrors
      cases hmirrors with | stages hshows hidle =>
      rw [verdict_of_shows hshows]
      cases progressed with
      | false =>
        -- Nothing has been counted, so that the first stage has not halted.
        cases h
        cases after with
        | nil =>
          rw [List.eq_nil_of_length_eq_zero hlength.symm] at hlive
          cases hlive
        | cons first rest => rw [List.all_cons, hidle rfl first List.mem_cons_self]; rfl
      | true =>
        change rounds false count after = some result at h
        cases count with
        | zero => cases h
        | succ count =>
          unfold rounds at h
          rw [round_eq_cascade, cascade_of_shows hshows] at h
          cases hall : after.all Stage.halted with
          | true =>
            rw [hall] at h
            cases h
            rfl
          | false =>
            rw [hall] at h
            cases h
            rfl

end Scheduled

/-- Without feedback the stages give what machines amount to that are run one after another, each
from the beginning and on all that the one before it has emitted. -/
theorem runScheduled_eq_relay (a : Amplifier) (hphases : a.phases ≠ [])
    (hfeedback : a.settings.feedback = false) :
    a.runScheduled = verdict
      (relay (boot a.program a.settings.machine) [a.settings.initialSignal] a.phases) := by
  obtain ⟨result, _, hrounds, _⟩ :=
    Scheduled.rounds_explained a.settings.feedback a.sound_stages a.total_stages_lt
  have hlive : (Scheduled.stages a).all Stage.halted = false := by
    unfold Scheduled.stages firstInputs
    cases hcases : a.phases with
    | nil => exact absurd hcases hphases
    | cons phase phases => rfl
  have hboot : (boot a.program a.settings.machine).status ≠ .halted := by simp [boot]
  have hmirrors := Scheduled.mirrors_cascade hboot rfl [a.settings.initialSignal] a.phases
  have hround : Scheduled.round false (Scheduled.stages a) =
      Scheduled.cascade [a.settings.initialSignal]
        (a.phases.map (Scheduled.fresh a.stageMachine)) := by
    rw [Scheduled.round_eq_cascade, Scheduled.cascade_stages]
  have hresult : a.runScheduled = result := by
    unfold runScheduled
    rw [hrounds]
    simp [hphases]
  rw [hfeedback] at hrounds
  rw [hresult]
  exact Scheduled.eq_of_rounds a.sound_stages hlive (hround ▸ hmirrors) hrounds

/-- A program that emits the sum of two input values. -/
def adding : Program := ⟨#[3, 11, 3, 12, 1, 11, 12, 13, 4, 13, 99].map Word.ofCount⟩

/-- A program that asks for two more input values after a first one that is zero, and otherwise
comes to an instruction that does not exist. -/
def choosing : Program := ⟨#[3, 20, 1005, 20, 9, 3, 20, 3, 20, 42].map Word.ofCount⟩

/-- Two stages add their phases to the signal, one after the other; and a stage that faults is told
of although the stage before it still waits. -/
theorem runScheduled_eq_relay_choosing :
    runScheduled ⟨adding, [1, 0], { initialSignal := 1 }⟩ = .ok (Word.ofCount 2) ∧
      runScheduled ⟨choosing, [0, 1], { initialSignal := 1 }⟩ =
        .error (.fault (.decode 9 (.unknownOpcode 42))) := by
  have hadding := runScheduled_eq_relay ⟨adding, [1, 0], { initialSignal := 1 }⟩ (by decide) rfl
  have hchoosing :=
    runScheduled_eq_relay ⟨choosing, [0, 1], { initialSignal := 1 }⟩ (by decide) rfl
  rw [hadding, hchoosing]
  decide +kernel

end Intcode.Amplifier
