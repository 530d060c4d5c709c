import Intcode.CommandLine.Command
import Intcode.CommandLine.Notice
import Intcode.Mesh.Run

/-!
# Plans

What a command does, as data: a plan is what is read, written and shown, in order, where the steps
behind a reading or writing depend on how it went. `Command.plan` is the plan of a command. A plan
can be carried out on a disk, or on a store of files (`Plan.runOn`), which gives a report of all
that there is to see.

A command fails at the first thing that goes wrong, and what it has shown and written up to then
stays. Only a trace goes on after a fault: it reports the fault and still shows the instructions
that have been executed.
-/
namespace Intcode.CommandLine

/-- Things to be done one after the other. -/
inductive Plan where
  /-- All is done. -/
  | done
  /-- The command fails. -/
  | fail (cause : Failure)
  /-- The command never comes to an end. -/
  | stall
  /-- Tells the user something. -/
  | tell (notice : Notice) (next : Plan)
  /-- Reports a fault and goes on. -/
  | warn (fault : Fault) (next : Plan)
  /-- Reads a file and goes on with its content. -/
  | read (name : String) (next : Except FileError String → Plan)
  /-- Writes a file and goes on. -/
  | write (name content : String) (next : Except FileError Unit → Plan)

namespace Plan

/-- Goes on with a value, or fails. -/
def attempt {ε α : Type} (failure : ε → Failure) (result : Except ε α) (next : α → Plan) : Plan :=
  match result with
  | .ok value => next value
  | .error cause => fail (failure cause)

/-- Reads a file or fails. -/
def withFile (name : String) (next : String → Plan) : Plan :=
  read name fun result => attempt .file result next

/-- Tells whether a file holds a program image: the last part of its name ends with a dot and the
letters `json`, and something stands in front of the dot. -/
def isImageName (name : String) : Bool :=
  let parts := (Text.fields '/' name.toList).filter fun part => !part.isEmpty && part ≠ ['.']
  match (parts.getLastD []).reverse with
  | 'n' :: 'o' :: 's' :: 'j' :: '.' :: stem => !stem.isEmpty
  | _ => false

/-- The program in a file with a name and a content. -/
def programOf (name content : String) : Except Failure Program :=
  if isImageName name then
    match Program.ofImage? content with
    | some program => .ok program
    | none => .error .image
  else (Program.parse content).mapError .program

/-- Goes on with the program in a file. -/
def withProgram (name : String) (next : Program → Plan) : Plan :=
  withFile name fun content => attempt id (programOf name content) next

/-- Tells how a machine has stopped. -/
def tellStop (m : Machine) (stop : Stop) (next : Plan) : Plan :=
  tell (.stopped stop m.ip m.steps) next

/-- Saves a machine and says so. -/
def save (name : String) (m : Machine) (next : Plan) : Plan :=
  write name m.snapshot.save fun result =>
    attempt .file result fun _ => tell (.saved name m.ip) next

end Plan

/-- Puts values into memory, one after the other. -/
def applyPatches (patches : List Patch) (m : Machine) : Except Fault Machine :=
  patches.foldlM
    (fun m patch =>
      match m.poke patch.address patch.value with
      | (.ok (), m) => .ok m
      | (.error fault, _) => .error fault)
    m

namespace Command

open Plan

/-- The settings of a mesh, read from a file if there is one. -/
def withMeshSettings (file : Option String) (next : Mesh.Settings → Plan) : Plan :=
  match file with
  | none => next {}
  | some name => withFile name fun content => attempt .settings (Mesh.Settings.load content) next

/-- What a command does. -/
def plan : Command → Plan
  | run file input lines ascii stepLimit patches =>
    withProgram file fun program =>
      let booted := Machine.boot program { stepLimit }
      attempt .fault (applyPatches patches booted) fun m =>
        let (result, m) := m.run (input ++ lines.flatMap Ascii.encodeLine)
        attempt .fault result fun outcome =>
          tell (if ascii then .transcript outcome.outputs else .outputs outcome.outputs)
            (tellStop m outcome.stop done)
  | trace file input =>
    withProgram file fun program =>
      let (result, m) := (Machine.boot program { tracing := true }).run input
      let ending := tell (.trace m.steps m.traceLines) done
      match result with
      | .ok outcome => tell (.outputs outcome.outputs) (tellStop m outcome.stop ending)
      | .error fault => warn fault ending
  | disassemble file => withProgram file fun program => tell (.listing program.listing) done
  | amplify file phases feedback fixed signal =>
    withProgram file fun program =>
      let amplifier : Amplifier := ⟨program, phases, { feedback, initialSignal := signal }⟩
      if fixed then
        match amplifier.runConcurrent with
        | none => stall
        | some result => attempt .amplifier result fun signal => tell (.signal signal) done
      else
        match amplifier.bestOrder with
        | none => stall
        | some result => attempt .amplifier result fun best => tell (.best best) done
  | network file nodes settings json =>
    withProgram file fun program =>
      withMeshSettings settings fun settings =>
        match Mesh.run program { settings with nodes := nodes.getD settings.nodes } with
        | none => stall
        | some result =>
          attempt .mesh result fun outcome =>
            tell (if json then .record outcome else .outcome outcome) done
  | snapshot file input output =>
    withProgram file fun program =>
      let (result, m) := (Machine.boot program {}).run input
      attempt .fault result fun outcome =>
        tell (.outputs outcome.outputs) (save output m (tellStop m outcome.stop done))
  | resume file input output stepLimit =>
    withFile file fun content =>
      attempt .snapshot (Snapshot.load content) fun saved =>
        let settings : Machine.Settings := { stepLimit, memoryLimit := saved.tape.limit }
        let (result, m) := (Machine.ofSnapshotWith saved settings).run input
        attempt .fault result fun outcome =>
          let ending := tellStop m outcome.stop done
          tell (.outputs outcome.outputs) <|
            match output with
            | some name => save name m ending
            | none => ending

end Command

/-! ### Carrying out a plan on a store of files -/

/-- How a command comes to its end. -/
inductive Ending where
  /-- It does all that it should do. -/
  | done
  /-- It fails. -/
  | failed (cause : Failure)
  /-- It is not understood. -/
  | misused (error : UsageError)
  /-- It never ends. -/
  | never
  deriving DecidableEq

/-- All that there is to see of a command. -/
structure Report where
  /-- What is shown, in order. -/
  notices : List Notice
  /-- The faults that are reported on the way. -/
  warnings : List Fault
  /-- The files after all. -/
  files : Files
  /-- How the command comes to its end. -/
  ending : Ending
  deriving DecidableEq

namespace Report

/-- The text that is shown. -/
def output (r : Report) : String := String.join (r.notices.map Notice.text)

/-- The lines of complaint. -/
def complaints (r : Report) : List String :=
  r.warnings.map (fun fault => "runtime error: " ++ fault.message) ++
    match r.ending with
    | .failed cause => ["error: " ++ cause.message]
    | .misused error => ["error: " ++ error.message]
    | _ => []

/-- The number that tells the caller how the command has ended, if it does. -/
def exitCode? (r : Report) : Option UInt8 :=
  match r.ending with
  | .done => some 0
  | .failed _ => some 1
  | .misused _ => some 2
  | .never => none

end Report

/-- What there is to see of a plan that is carried out on a store of files. -/
def Plan.runOn (files : Files) : Plan → Report
  | done => ⟨[], [], files, .done⟩
  | fail cause => ⟨[], [], files, .failed cause⟩
  | stall => ⟨[], [], files, .never⟩
  | tell notice next =>
    let report := next.runOn files
    { report with notices := notice :: report.notices }
  | warn fault next =>
    let report := next.runOn files
    { report with warnings := fault :: report.warnings }
  | read name next => (next (files.read name)).runOn files
  | write name content next =>
    match files.write name content with
    | .ok files => (next (.ok ())).runOn files
    | .error cause => (next (.error cause)).runOn files

/-- What there is to see of a command line. -/
def report (files : Files) (arguments : List String) : Report :=
  match Command.ofArguments arguments with
  | .ok command => command.plan.runOn files
  | .error error => ⟨[], [], files, .misused error⟩

end Intcode.CommandLine
