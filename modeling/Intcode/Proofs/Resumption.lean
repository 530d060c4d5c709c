import Intcode.CommandLine.Plan
import Intcode.Proofs.InputArrival
import Intcode.Proofs.SavedForms

/-!
# Saving and resuming

A program may be run in several commands: the first one saves the machine, and each of the others
reads what the one before it has saved, goes on with more input, and saves the machine again.  This
module proves that such commands emit together what one run emits that is given all the input at
once, and end as it ends (`resumes_eq_run`).

Each of the commands is a leg of the way: a machine runs on some input and is saved if it has to be
(`Leg`).  A machine that is read again is the machine that was saved (`leg_resume`), and runs one
after another are one run (`Machine.conclude_queue`).  What is peculiar to the legs is that they
write files, and that can fail where the one run does not (`not_failed_of_resume_failed`).
-/

namespace Intcode

open CommandLine

namespace Machine

/-! ## Machines with the usual settings -/

variable {σ : Type} {m : Machine}

/-- A machine that does not trace has noted nothing. -/
structure IsSilent (m : Machine) : Prop where
  tracing : m.tracing = false
  trace : m.trace = #[]

lemma silent_storing (h : m.IsSilent) (ip : UInt64) (target value : Word) (s : σ) :
    (m.storing none ip target value s).machine.IsSilent := by
  unfold storing
  split <;> exact ⟨h.tracing, h.trace⟩

lemma silent_perform (h : m.IsSilent) (port : Port σ) (i : Instruction) (action : Action) (s : σ) :
    (m.perform port i action s).machine.IsSilent := by
  have hnote : (if m.tracing then some (m.traceEntry i) else none) = none := by
    rw [h.tracing]
    rfl
  unfold perform
  rw [hnote]
  cases action with
  | store target value => exact silent_storing h _ target value s
  | receive target =>
    rcases m.inputs with _ | ⟨value, rest⟩
    · rcases port.receive s with ⟨fault | (_ | value), s'⟩
      · exact h
      · exact ⟨h.tracing, h.trace⟩
      · exact silent_storing h _ target value s'
    · have hrest : { m with inputs := rest }.IsSilent := ⟨h.tracing, h.trace⟩
      exact silent_storing hrest _ target value s
  | emit value =>
    simp only
    rcases port.send value s with ⟨fault | sent, s'⟩
    · exact h
    · exact ⟨h.tracing, h.trace⟩
  | jump destination => exact ⟨h.tracing, h.trace⟩
  | rebase base => exact ⟨h.tracing, h.trace⟩
  | halt => exact ⟨h.tracing, h.trace⟩

lemma silent_execute (h : m.IsSilent) (port : Port σ) (s : σ) :
    (m.execute port s).machine.IsSilent := by
  have htape (tape : Tape) : { m with tape := tape }.IsSilent := ⟨h.tracing, h.trace⟩
  unfold execute
  split_ifs
  · exact h
  · exact h
  · rcases (Access.prepare m.ip m.relativeBase).run m.tape with ⟨fault | ⟨i, action⟩, tape⟩
    · exact htape tape
    · exact silent_perform (htape tape) port i action s

/-- A run notes nothing if the machine does not trace. -/
lemma silent_runWith (h : m.IsSilent) (port : Port σ) (s : σ) :
    (m.runWith port s).machine.IsSilent :=
  machine_runWith (P := IsSilent) (fun _ s hsilent => silent_execute hsilent port s) h s

/-- A machine with the step limit and the tracing of a machine that is built without settings. -/
structure IsUsual (m : Machine) : Prop extends m.IsSilent where
  stepLimit : m.stepLimit = Command.defaultStepLimit

/-- A run keeps the usual settings. -/
lemma IsUsual.conclude (h : m.IsUsual) {m' : Machine} {input : List Word} {outcome : Outcome}
    (hrun : (m.queue input).conclude = .ok (outcome, m')) : m'.IsUsual := by
  have hqueue : (m.queue input).IsSilent := ⟨h.tracing, h.trace⟩
  have hsilent := silent_runWith hqueue Port.buffered ⟨[], #[]⟩
  have hlimit := stepLimit_runWith Port.buffered (m.queue input) ⟨[], #[]⟩
  have hmachine : ((m.queue input).runWith Port.buffered ⟨[], #[]⟩).machine = m' :=
    congrArg Prod.snd (run_of_conclude_ok hrun)
  rw [hmachine] at hsilent hlimit
  exact ⟨hsilent, hlimit.trans h.stepLimit⟩

/-- A machine with the usual settings is built again from its snapshot, with its own memory
limit. -/
lemma IsUsual.ofSnapshotWith (h : m.IsUsual) :
    Machine.ofSnapshotWith m.snapshot
      { stepLimit := Command.defaultStepLimit, memoryLimit := m.snapshot.tape.limit } = m := by
  obtain ⟨⟨htracing, htrace⟩, hlimit⟩ := h
  cases m
  subst htracing htrace hlimit
  rfl

end Machine

namespace CommandLine

open Machine

/-! ## Legs -/

/-- The values that a command shows as the output of a program. -/
def Report.emitted (r : Report) : List Word :=
  r.notices.flatMap fun
    | .outputs values => values
    | _ => []

/-- What there is to see of a command that runs a machine on some input and saves it, if there is a
name to save it under. -/
inductive Leg (files : Files) (m : Machine) (input : List Word) (output : Option String)
    (r : Report) : Prop where
  /-- The run faults. -/
  | faulted {fault : Fault} (hrun : (m.queue input).conclude = .error fault)
    (hending : r.ending = .failed (.fault fault))
  /-- The run goes well, but the file cannot be written. -/
  | unsaved {outcome : Outcome} {m' : Machine} {name : String} {error : FileError}
    (hrun : (m.queue input).conclude = .ok (outcome, m')) (houtput : output = some name)
    (hwrite : files.write name m'.snapshot.save = .error error) (hfiles : r.files = files)
    (hending : r.ending = .failed (.file error))
  /-- The run goes well, and the machine is saved. -/
  | finished {outcome : Outcome} {m' : Machine}
    (hrun : (m.queue input).conclude = .ok (outcome, m'))
    (hwrite : ∀ name, output = some name → files.write name m'.snapshot.save = .ok r.files)
    (hending : r.ending = .done) (hemitted : r.emitted = outcome.outputs)
    (hlast : r.notices.getLast? = some (.stopped outcome.stop m'.ip m'.steps))

/-- The plan of a leg. -/
def Plan.leg (m : Machine) (input : List Word) (output : Option String) : Plan :=
  let (result, m) := m.run input
  attempt .fault result fun outcome =>
    tell (.outputs outcome.outputs) <|
      match output with
      | some name => save name m (tellStop m outcome.stop done)
      | none => tellStop m outcome.stop done

lemma runOn_save_of_error {files : Files} {name : String} {m : Machine} {error : FileError}
    (h : files.write name m.snapshot.save = .error error) (next : Plan) :
    (Plan.save name m next).runOn files = ⟨[], [], files, .failed (.file error)⟩ := by
  unfold Plan.save
  simp only [Plan.runOn, h, Plan.attempt]

lemma runOn_save_of_ok {files files' : Files} {name : String} {m : Machine}
    (h : files.write name m.snapshot.save = .ok files') (next : Plan) :
    (Plan.save name m next).runOn files = (Plan.tell (.saved name m.ip) next).runOn files' := by
  unfold Plan.save
  simp only [Plan.runOn, h, Plan.attempt]

/-- The report on the plan of a leg shows the leg. -/
lemma leg_runOn (files : Files) (m : Machine) (input : List Word) (output : Option String) :
    Leg files m input output ((Plan.leg m input output).runOn files) := by
  have hconclude := conclude_queue_eq_run input m
  unfold Plan.leg
  rcases hrun : m.run input with ⟨fault | outcome, m'⟩
  all_goals rw [hrun] at hconclude
  · exact .faulted hconclude rfl
  · have hemitted : outcome.outputs ++ [] = outcome.outputs := List.append_nil outcome.outputs
    cases output with
    | none => exact .finished hconclude (fun name hname => nomatch hname) rfl hemitted rfl
    | some name =>
      let rest := Plan.save name m' (Plan.tellStop m' outcome.stop .done)
      change Leg files m input (some name) { rest.runOn files with
        notices := .outputs outcome.outputs :: (rest.runOn files).notices }
      rcases hwrite : files.write name m'.snapshot.save with error | files'
      · rw [runOn_save_of_error hwrite]
        exact .unsaved hconclude rfl hwrite rfl rfl
      · rw [runOn_save_of_ok hwrite]
        refine .finished hconclude (fun other hother => ?_) rfl hemitted rfl
        cases hother
        exact hwrite

/-- A leg that comes to its end has run without a fault, and has saved the machine if it had to. -/
lemma Leg.of_done {files : Files} {m : Machine} {input : List Word} {output : Option String}
    {r : Report} (h : Leg files m input output r) (hdone : r.ending = .done) :
    ∃ outcome m', (m.queue input).conclude = .ok (outcome, m') ∧
      (∀ name, output = some name → files.write name m'.snapshot.save = .ok r.files) ∧
      r.emitted = outcome.outputs ∧
      r.notices.getLast? = some (.stopped outcome.stop m'.ip m'.steps) := by
  cases h with
  | faulted _ hending => cases hdone.symm.trans hending
  | unsaved _ _ _ _ hending => cases hdone.symm.trans hending
  | finished hrun hwrite _ hemitted hlast => exact ⟨_, _, hrun, hwrite, hemitted, hlast⟩

/-- A leg comes to its end if the run goes well and the file, if there is one, can be written. -/
lemma Leg.of_ok {files : Files} {m m' : Machine} {input : List Word} {output : Option String}
    {outcome : Outcome} {r : Report} (h : Leg files m input output r)
    (hrun : (m.queue input).conclude = .ok (outcome, m'))
    (hwritable : ∀ name, output = some name →
      ∃ files', files.write name m'.snapshot.save = .ok files') :
    r.ending = .done ∧ r.emitted = outcome.outputs ∧
      r.notices.getLast? = some (.stopped outcome.stop m'.ip m'.steps) ∧
      ∀ name, output = some name → files.write name m'.snapshot.save = .ok r.files := by
  cases h with
  | faulted hfault _ => cases hrun.symm.trans hfault
  | unsaved hok houtput hwrite _ _ =>
    cases hrun.symm.trans hok
    obtain ⟨files', hwritten⟩ := hwritable _ houtput
    cases hwrite.symm.trans hwritten
  | finished hok hwrite hending hemitted hlast =>
    cases hrun.symm.trans hok
    exact ⟨hending, hemitted, hlast, hwrite⟩

/-- A leg fails if the run faults. -/
lemma Leg.of_error {files : Files} {m : Machine} {input : List Word} {output : Option String}
    {r : Report} {fault : Fault} (h : Leg files m input output r)
    (hrun : (m.queue input).conclude = .error fault) : r.ending = .failed (.fault fault) := by
  cases h with
  | faulted hfault hending =>
    cases hrun.symm.trans hfault
    exact hending
  | unsaved hok _ _ _ _ => cases hrun.symm.trans hok
  | finished hok _ _ _ _ => cases hrun.symm.trans hok

/-! ## Commands -/

/-- The program that a file holds. -/
def Loads (files : Files) (file : String) (program : Program) : Prop :=
  ∃ content, files.read file = .ok content ∧ Plan.programOf file content = .ok program

lemma runOn_withProgram {files : Files} {file : String} {program : Program}
    (h : Loads files file program) (next : Program → Plan) :
    (Plan.withProgram file next).runOn files = (next program).runOn files := by
  obtain ⟨content, hread, hprogram⟩ := h
  change (Plan.attempt .file (files.read file) fun content =>
    Plan.attempt id (Plan.programOf file content) next).runOn files = _
  rw [hread]
  change (Plan.attempt id (Plan.programOf file content) next).runOn files = _
  rw [hprogram]
  rfl

/-- A command that needs a program does not come to its end without one. -/
lemma exists_loads_of_done {files : Files} {file : String} {next : Program → Plan}
    (h : ((Plan.withProgram file next).runOn files).ending = .done) :
    ∃ program, Loads files file program := by
  change ((Plan.attempt .file (files.read file) fun content =>
    Plan.attempt id (Plan.programOf file content) next).runOn files).ending = _ at h
  rcases hread : files.read file with error | content
  · rw [hread] at h
    cases h
  · rw [hread] at h
    change ((Plan.attempt id (Plan.programOf file content) next).runOn files).ending = _ at h
    rcases hprogram : Plan.programOf file content with failure | program
    · rw [hprogram] at h
      cases h
    · exact ⟨program, content, hread, hprogram⟩

/-- The command that runs a program at once on some input. -/
def runAll (file : String) (input : List Word) : Command :=
  .run file input [] false Command.defaultStepLimit []

lemma leg_runAll {files : Files} {file : String} {program : Program}
    (h : Loads files file program) (input : List Word) :
    Leg files (boot program {}) input none ((runAll file input).plan.runOn files) := by
  have hplan : (runAll file input).plan.runOn files =
      (Plan.leg (boot program {}) (input ++ []) none).runOn files := runOn_withProgram h _
  rw [hplan, List.append_nil]
  exact leg_runOn files (boot program {}) input none

lemma leg_snapshot {files : Files} {file : String} {program : Program}
    (h : Loads files file program) (input : List Word) (name : String) :
    Leg files (boot program {}) input (some name)
      ((Command.snapshot file input name).plan.runOn files) := by
  have hplan : (Command.snapshot file input name).plan.runOn files =
      (Plan.leg (boot program {}) input (some name)).runOn files := runOn_withProgram h _
  rw [hplan]
  exact leg_runOn files (boot program {}) input (some name)

/-- A machine that has been saved goes on as if it had not been. -/
lemma leg_resume {files : Files} {m : Machine} {saved : String} (hm : m.IsUsual)
    (hread : files.read saved = .ok m.snapshot.save) (input : List Word) (output : Option String) :
    Leg files m input output
      ((Command.resume saved input output Command.defaultStepLimit).plan.runOn files) := by
  have hload : Snapshot.load m.snapshot.save = .ok m.snapshot :=
    Snapshot.load_save (UInt32.le_refl 1)
  have hplan : (Command.resume saved input output Command.defaultStepLimit).plan.runOn files =
      (Plan.leg m input output).runOn files := by
    change (Plan.attempt .file (files.read saved) fun content =>
      Plan.attempt .snapshot (Snapshot.load content) fun saved => _).runOn files = _
    rw [hread]
    change (Plan.attempt .snapshot (Snapshot.load m.snapshot.save) _).runOn files = _
    rw [hload]
    change (Plan.leg (Machine.ofSnapshotWith m.snapshot _) input output).runOn files = _
    rw [hm.ofSnapshotWith]
  rw [hplan]
  exact leg_runOn files m input output

/-! ## Commands one after another -/

/-- Commands that are carried out one after another, with what there is to see of each.  Each of
them finds the files that the one before it has left. -/
def carryOut (files : Files) : List Command → List (Command × Report)
  | [] => []
  | command :: commands =>
    (command, command.plan.runOn files) :: carryOut (command.plan.runOn files).files commands

/-- The commands that go on with a machine: the first one reads what has been saved, each of the
others what the one before it has saved, and the last one need not save anything. -/
def resumes (saved : String) (legs : List (List Word × String)) (last : List Word × Option String) :
    List Command :=
  match legs with
  | [] => [.resume saved last.1 last.2 Command.defaultStepLimit]
  | (input, name) :: legs =>
    .resume saved input (some name) Command.defaultStepLimit :: resumes name legs last

/-- The whole input of the commands that go on with a machine. -/
def inputOf (legs : List (List Word × String)) (last : List Word × Option String) : List Word :=
  legs.flatMap Prod.fst ++ last.1

/-- What the last command shows last. -/
def lastNotice? (history : List (Command × Report)) : Option Notice :=
  history.getLast?.bind fun entry => entry.2.notices.getLast?

/-- What has been shown before is not what was shown last. -/
lemma lastNotice?_cons (entry : Command × Report) {history : List (Command × Report)}
    {notice : Notice} (h : lastNotice? history = some notice) :
    lastNotice? (entry :: history) = some notice := by
  obtain ⟨last, hlast, hnotice⟩ := Option.bind_eq_some_iff.1 h
  unfold lastNotice?
  rw [List.getLast?_cons, hlast]
  exact hnotice

variable {files : Files} {m m' : Machine} {saved : String} {input more : List Word}
  {output : Option String} {outcome : Outcome} {r : Report}

/-- Commands do together what a machine does on some input: they emit the same, and the last one
tells how the machine stops. -/
def Complete (m : Machine) (input : List Word) (history : List (Command × Report)) : Prop :=
  ∃ outcome m', (m.queue input).conclude = .ok (outcome, m') ∧
    history.flatMap (fun entry => entry.2.emitted) = outcome.outputs ∧
    lastNotice? history = some (.stopped outcome.stop m'.ip m'.steps)

/-- A first leg and what completes the run behind it complete the run. -/
lemma Complete.cons (hrun : (m.queue input).conclude = .ok (outcome, m'))
    (hemitted : r.emitted = outcome.outputs) {history : List (Command × Report)}
    (h : Complete m' more history) (command : Command) :
    Complete m (input ++ more) ((command, r) :: history) := by
  obtain ⟨outcome', m'', hrun', hemitted', hlast⟩ := h
  have hwhole : (m.queue (input ++ more)).conclude =
      .ok (after outcome.outputs (outcome', m'')) := by
    rw [conclude_append, hrun]
    change (m'.queue more).conclude.map _ = _
    rw [hrun']
    rfl
  refine ⟨_, m'', hwhole, ?_, lastNotice?_cons _ hlast⟩
  rw [List.flatMap_cons, hemitted, hemitted']

/-- Why a command fails that goes on with a machine: the run with the whole input faults, or the
command cannot write the file that it is told to write. -/
inductive Fails (whole : Except Fault (Outcome × Machine)) (output : Option String) (r : Report) :
    Prop where
  /-- The run with the whole input has the same fault. -/
  | faulted {fault : Fault} (hwhole : whole = .error fault)
    (hending : r.ending = .failed (.fault fault))
  /-- The file cannot be written. -/
  | unsaved {name content : String} {error : FileError} (houtput : output = some name)
    (hwrite : r.files.write name content = .error error)
    (hending : r.ending = .failed (.file error))

/-- A leg that fails does so with the fault of the run that has more input, or since it cannot write
its file. -/
lemma Leg.fails (h : Leg files m input output r) (hfails : r.ending ≠ .done) (more : List Word) :
    Fails (m.queue (input ++ more)).conclude output r := by
  cases h with
  | @faulted fault hrun hending =>
    have hwhole : (m.queue (input ++ more)).conclude = .error fault := by
      rw [conclude_append, hrun]
      rfl
    exact .faulted hwhole hending
  | unsaved _ houtput hwrite hfiles hending => exact .unsaved houtput (hfiles ▸ hwrite) hending
  | finished _ _ hending _ _ => exact absurd hending hfails

/-- What fails behind a first leg fails as it would with the input of that leg in front. -/
lemma Fails.after (hrun : (m.queue input).conclude = .ok (outcome, m'))
    (h : Fails (m'.queue more).conclude output r) :
    Fails (m.queue (input ++ more)).conclude output r := by
  cases h with
  | @faulted fault hwhole hending =>
    have hwhole' : (m.queue (input ++ more)).conclude = .error fault := by
      rw [conclude_append, hrun]
      change (m'.queue more).conclude.map _ = _
      rw [hwhole]
      rfl
    exact .faulted hwhole' hending
  | unsaved houtput hwrite hending => exact .unsaved houtput hwrite hending

lemma inputOf_cons (input : List Word) (name : String) (legs : List (List Word × String))
    (last : List Word × Option String) :
    inputOf ((input, name) :: legs) last = input ++ inputOf legs last := by
  unfold inputOf
  rw [List.flatMap_cons, List.append_assoc]

/-- Commands that go on with a machine and all come to their end complete its run. -/
lemma complete_of_done (legs : List (List Word × String)) (last : List Word × Option String)
    (hm : m.IsUsual) (hread : files.read saved = .ok m.snapshot.save)
    (hdone : ∀ entry ∈ carryOut files (resumes saved legs last), entry.2.ending = .done) :
    Complete m (inputOf legs last) (carryOut files (resumes saved legs last)) := by
  induction legs generalizing files m saved with
  | nil =>
    obtain ⟨outcome, m', hrun, _, hemitted, hlast⟩ :=
      (leg_resume hm hread last.1 last.2).of_done (hdone _ List.mem_cons_self)
    exact ⟨outcome, m', hrun, (List.append_nil _).trans hemitted, hlast⟩
  | cons leg legs ih =>
    obtain ⟨input, name⟩ := leg
    obtain ⟨hend, hrest⟩ := List.forall_mem_cons.1 hdone
    obtain ⟨outcome, m', hrun, hwrite, hemitted, _⟩ :=
      (leg_resume hm hread input (some name)).of_done hend
    have hcomplete := ih (hm.conclude hrun) (Files.read_write (hwrite name rfl)) hrest
    rw [inputOf_cons]
    exact hcomplete.cons hrun hemitted _

/-- The first command to fail of those that go on with a machine fails as the run with all their
input does, or since it cannot write its file. -/
lemma fails_of_failed (legs : List (List Word × String)) (last : List Word × Option String)
    (hm : m.IsUsual) (hread : files.read saved = .ok m.snapshot.save)
    {before rest : List (Command × Report)} {saved' : String} {limit : UInt64}
    (hhistory : carryOut files (resumes saved legs last) =
      before ++ (.resume saved' input output limit, r) :: rest)
    (hbefore : ∀ entry ∈ before, entry.2.ending = .done) (hfails : r.ending ≠ .done) :
    Fails (m.queue (inputOf legs last)).conclude output r := by
  induction legs generalizing files m saved before with
  | nil =>
    rcases List.cons_eq_append_iff.1 hhistory with ⟨rfl, hentry⟩ | ⟨before, rfl, hrest⟩
    · cases hentry
      have hleg := (leg_resume hm hread last.1 last.2).fails hfails []
      rwa [List.append_nil] at hleg
    · cases before <;> cases hrest
  | cons leg legs ih =>
    obtain ⟨first, name⟩ := leg
    rw [inputOf_cons]
    rcases List.cons_eq_append_iff.1 hhistory with ⟨rfl, hentry⟩ | ⟨before, rfl, hrest⟩
    · cases hentry
      exact (leg_resume hm hread _ _).fails hfails (inputOf legs last)
    · obtain ⟨hend, hbefore⟩ := List.forall_mem_cons.1 hbefore
      obtain ⟨outcome, m', hrun, hwrite, _⟩ :=
        (leg_resume hm hread first (some name)).of_done hend
      exact .after hrun (ih (hm.conclude hrun) (Files.read_write (hwrite name rfl)) hrest hbefore)

lemma isUsual_boot (program : Program) : (boot program {}).IsUsual := ⟨⟨rfl, rfl⟩, rfl⟩

/-- A program that is run in several commands, each of which goes on with what the one before it has
saved, is run as by one command with all the input.  If all of them come to their end, so does that
one command; they emit together what it emits, and the last one tells, as it does, how the machine
stops, where it stands and how many instructions it has executed in all.  If the first one to fail
is one that goes on with a machine, then it fails as the one command does, or else since it cannot
write the file that it is told to write. -/
theorem resumes_eq_run (files : Files) (file : String) (input : List Word) (name : String)
    (legs : List (List Word × String)) (last : List Word × Option String) :
    let history := carryOut files (.snapshot file input name :: resumes name legs last)
    let whole := (runAll file (input ++ inputOf legs last)).plan.runOn files
    ((∀ entry ∈ history, entry.2.ending = .done) →
      whole.ending = .done ∧
      history.flatMap (fun entry => entry.2.emitted) = whole.emitted ∧
      ∃ stop ip steps, lastNotice? history = some (.stopped stop ip steps) ∧
        whole.notices.getLast? = some (.stopped stop ip steps)) ∧
    ∀ before saved more output limit r rest,
      history = before ++ (.resume saved more output limit, r) :: rest →
      (∀ entry ∈ before, entry.2.ending = .done) → r.ending ≠ .done →
      ∃ cause, r.ending = .failed cause ∧ (whole.ending = .failed cause ∨
        ∃ name content error, output = some name ∧ r.files.write name content = .error error ∧
          cause = .file error) := by
  intro history whole
  -- If the first command comes to its end, there is a program, and its first leg has been saved.
  have hfirst (hend : ((Command.snapshot file input name).plan.runOn files).ending = .done) :
      ∃ program outcome m, Loads files file program ∧
        ((boot program {}).queue input).conclude = .ok (outcome, m) ∧
        ((Command.snapshot file input name).plan.runOn files).emitted = outcome.outputs ∧
        m.IsUsual ∧ ((Command.snapshot file input name).plan.runOn files).files.read name =
          .ok m.snapshot.save := by
    obtain ⟨program, hprogram⟩ := exists_loads_of_done hend
    obtain ⟨outcome, m, hrun, hwrite, hemitted, _⟩ :=
      (leg_snapshot hprogram input name).of_done hend
    exact ⟨program, outcome, m, hprogram, hrun, hemitted, (isUsual_boot program).conclude hrun,
      Files.read_write (hwrite name rfl)⟩
  constructor
  · intro hdone
    obtain ⟨hend, hrest⟩ := List.forall_mem_cons.1 hdone
    obtain ⟨program, outcome, m, hprogram, hrun, hemitted, hm, hread⟩ := hfirst hend
    obtain ⟨outcome', m', hwhole, hemitted', hlast⟩ :=
      (complete_of_done legs last hm hread hrest).cons hrun hemitted (.snapshot file input name)
    have hleg := leg_runAll hprogram (input ++ inputOf legs last)
    obtain ⟨hending, hshown, hstopped, _⟩ := hleg.of_ok hwhole fun _ hname => nomatch hname
    exact ⟨hending, hemitted'.trans hshown.symm, _, _, _, hlast, hstopped⟩
  · intro before saved more output limit r rest hhistory hbefore hfails
    rcases List.cons_eq_append_iff.1 hhistory with ⟨rfl, hentry⟩ | ⟨before, rfl, hrest⟩
    · cases hentry
    · obtain ⟨hend, hbefore⟩ := List.forall_mem_cons.1 hbefore
      obtain ⟨program, outcome, m, hprogram, hrun, _, hm, hread⟩ := hfirst hend
      have hleg := leg_runAll hprogram (input ++ inputOf legs last)
      cases (fails_of_failed legs last hm hread hrest hbefore hfails).after hrun with
      | faulted hwhole hending => exact ⟨_, hending, Or.inl (hleg.of_error hwhole)⟩
      | unsaved houtput hwrite hending =>
        exact ⟨_, hending, Or.inr ⟨_, _, _, houtput, hwrite, rfl⟩⟩

/-- A file with a program that emits a value, waits for another one, and then comes to a place where
there is no instruction. -/
def beacon : Files := .ofList [("p", "104,7,3,7,0")]

/-- What there is to see when the machine of `beacon` is saved. -/
def savedReport : Report := (Command.snapshot "p" [] "s").plan.runOn beacon

/-- What there is to see when it goes on. -/
def resumedReport (more : List Word) (output : Option String) : Report :=
  (Command.resume "s" more output Command.defaultStepLimit).plan.runOn savedReport.files

lemma carryOut_beacon (more : List Word) (output : Option String) :
    carryOut beacon (.snapshot "p" [] "s" :: resumes "s" [] (more, output)) =
      [(.snapshot "p" [] "s", savedReport)] ++
        [(.resume "s" more output Command.defaultStepLimit, resumedReport more output)] := by
  rw [resumes, carryOut, carryOut, carryOut]
  rfl

lemma write_beacon (content : String) :
    beacon.write "s" content = .ok (beacon.put ⟨.here, [['s']]⟩ content) := by
  have htarget : beacon.target "s" = .ok ⟨.here, [['s']]⟩ := by decide +kernel
  unfold Files.write
  rw [htarget]
  rfl

/-- The machine of `beacon` is saved while it waits, and faults with an input. -/
lemma saved_beacon :
    ∃ program m, Loads beacon "p" program ∧
      ((boot program {}).queue []).conclude = .ok (⟨[Word.ofCount 7], .awaitingInput⟩, m) ∧
      savedReport.ending = .done ∧
      savedReport.files = beacon.put ⟨.here, [['s']]⟩ m.snapshot.save ∧
      m.IsUsual ∧ (m.queue []).conclude = .ok (⟨[], .awaitingInput⟩, m) ∧
      (m.queue [1]).conclude = .error (.decode 4 (.unknownOpcode 0)) := by
  have hprogram : Loads beacon "p" ⟨#[104, 7, 3, 7, 0].map Word.ofCount⟩ :=
    ⟨"104,7,3,7,0", by decide +kernel, by decide +kernel⟩
  obtain ⟨m, hrun, hwaits, hfaults⟩ : ∃ m,
      ((boot ⟨#[104, 7, 3, 7, 0].map Word.ofCount⟩ {}).queue []).conclude =
        .ok (⟨[Word.ofCount 7], .awaitingInput⟩, m) ∧
      (m.queue []).conclude = .ok (⟨[], .awaitingInput⟩, m) ∧
      (m.queue [1]).conclude = .error (.decode 4 (.unknownOpcode 0)) :=
    ⟨((boot ⟨#[104, 7, 3, 7, 0].map Word.ofCount⟩ {}).run []).2, by decide +kernel,
      by decide +kernel, by decide +kernel⟩
  obtain ⟨hdone, _, _, hwrite⟩ := (leg_snapshot hprogram [] "s").of_ok hrun fun name hname => by
    cases hname
    exact ⟨_, write_beacon _⟩
  have hfiles := (hwrite "s" rfl).symm.trans (write_beacon m.snapshot.save)
  exact ⟨_, m, hprogram, hrun, hdone, Except.ok.inj hfiles, (isUsual_boot _).conclude hrun, hwaits,
    hfaults⟩

/-- What has been saved can be read. -/
lemma read_savedReport {m : Machine}
    (hfiles : savedReport.files = beacon.put ⟨.here, [['s']]⟩ m.snapshot.save) :
    savedReport.files.read "s" = .ok m.snapshot.save := by
  rw [hfiles]
  exact Files.read_write (write_beacon m.snapshot.save)

/-- Without more input `beacon` waits on, as it does when it is run at once; with an input it comes
to its fault, whether it has been saved or not. -/
theorem resumes_eq_run_beacon :
    (resumedReport [] none).ending = .done ∧ ((runAll "p" []).plan.runOn beacon).ending = .done ∧
      savedReport.emitted ++ (resumedReport [] none).emitted =
        ((runAll "p" []).plan.runOn beacon).emitted ∧
      (resumedReport [1] none).ending = .failed (.fault (.decode 4 (.unknownOpcode 0))) ∧
      ((runAll "p" [1]).plan.runOn beacon).ending =
        .failed (.fault (.decode 4 (.unknownOpcode 0))) := by
  obtain ⟨program, m, _, _, hdone, hfiles, hm, hwaits, hfaults⟩ := saved_beacon
  have hread := read_savedReport hfiles
  have hleg (more : List Word) : Leg savedReport.files m more none (resumedReport more none) :=
    leg_resume hm hread more none
  obtain ⟨hended, _⟩ := (hleg []).of_ok hwaits fun _ hname => nomatch hname
  have hfailed := (hleg [1]).of_error hfaults
  have hnotDone : (resumedReport [1] none).ending ≠ .done := by
    rw [hfailed]
    decide
  obtain ⟨hcomplete, _⟩ := resumes_eq_run beacon "p" [] "s" [] ([], none)
  obtain ⟨_, hfails⟩ := resumes_eq_run beacon "p" [] "s" [] ([1], none)
  rw [carryOut_beacon] at hcomplete
  obtain ⟨hwhole, hemitted, _⟩ := hcomplete (by simp [hdone, hended])
  obtain ⟨cause, hcause, hsame⟩ := hfails _ _ _ _ _ _ _ (carryOut_beacon [1] none)
    (by simp [hdone]) hnotDone
  cases hfailed.symm.trans hcause
  rcases hsame with hsame | ⟨_, _, _, hnone, _⟩
  · have hshown : savedReport.emitted ++ (resumedReport [] none).emitted =
        ((runAll "p" []).plan.runOn beacon).emitted := by
      rw [← List.append_nil (resumedReport [] none).emitted]
      exact hemitted
    exact ⟨hended, hwhole, hshown, hfailed, hsame⟩
  · cases hnone

/-- A command that goes on with a machine can fail where the run as a whole does not, if it is told
to write a file in a directory that is not there. -/
theorem not_failed_of_resume_failed :
    ¬ ∀ (files : Files) (file : String) (input : List Word) (name : String)
        (legs : List (List Word × String)) (last : List Word × Option String)
        (before : List (Command × Report)) (saved : String) (more : List Word)
        (output : Option String) (limit : UInt64) (r : Report) (rest : List (Command × Report))
        (cause : Failure),
      carryOut files (.snapshot file input name :: resumes name legs last) =
          before ++ (.resume saved more output limit, r) :: rest →
        (∀ entry ∈ before, entry.2.ending = .done) → r.ending = .failed cause →
        ((runAll file (input ++ inputOf legs last)).plan.runOn files).ending = .failed cause := by
  intro h
  obtain ⟨program, m, hprogram, hrun, hdone, hfiles, hm, hwaits, _⟩ := saved_beacon
  have hmissing (content other : String) :
      (beacon.put ⟨.here, [['s']]⟩ content).write "d/s" other = .error .notFound := by
    have htarget :
        (beacon.put ⟨.here, [['s']]⟩ content).target "d/s" = .error .notFound := by
      with_unfolding_all rfl
    unfold Files.write
    rw [htarget]
    rfl
  have hleg : Leg savedReport.files m [] (some "d/s") (resumedReport [] (some "d/s")) :=
    leg_resume hm (read_savedReport hfiles) [] (some "d/s")
  rw [hfiles] at hleg
  have hfailed : (resumedReport [] (some "d/s")).ending = .failed (.file .notFound) := by
    cases hleg with
    | faulted hfault _ => cases hwaits.symm.trans hfault
    | unsaved _ houtput hwrite _ hending =>
      cases houtput
      cases (hmissing _ _).symm.trans hwrite
      exact hending
    | finished _ hwrite _ _ _ => cases (hmissing _ _).symm.trans (hwrite "d/s" rfl)
  have hsame := h beacon "p" [] "s" [] ([], some "d/s") _ _ _ _ _ _ _ _
    (carryOut_beacon [] (some "d/s")) (by simp [hdone]) hfailed
  obtain ⟨hwhole, _⟩ := (leg_runAll hprogram []).of_ok hrun fun _ hname => by cases hname
  cases hwhole.symm.trans hsame

end CommandLine

end Intcode
