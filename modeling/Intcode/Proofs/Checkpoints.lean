import Intcode.Proofs.Operations

/-!
# Snapshots hold everything that matters

A snapshot leaves out the step limit of a machine, its tracing and what it has noted.  This module
proves that nothing else is missing: two machines that agree on these two settings cannot be told
apart any more once the one has got the snapshot of the other, whatever they are asked
(`after_restore_snapshot`).

The invariant is that the machines are the same up to their traces.  It holds when the snapshot has
been restored (`untraced_restore_snapshot`) and every operation keeps it (`untraced_perform`).
-/

namespace Intcode.Machine

/-- What has been noted before comes first among the lines of a trace. -/
lemma traceLines_behind (earlier : Array TraceEntry) (m : Machine) :
    (m.behind earlier).traceLines =
      (earlier.toList.map fun entry => String.ofList entry.line) ++ m.traceLines := by
  unfold traceLines behind
  rw [Array.toList_append, List.map_append]

/-- What an operation notes depends on the machine without its trace. -/
lemma traceLines_perform (m : Machine) (op : Operation) :
    (op.perform m).2.traceLines =
      (if op.clearsTrace then [] else m.traceLines) ++ (op.perform m.untraced).2.traceLines := by
  rw [op.perform_eq m, traceLines_behind]
  cases op.clearsTrace <;> rfl

/-- A snapshot shows nothing of the trace. -/
lemma snapshot_perform (m : Machine) (op : Operation) :
    (op.perform m).2.snapshot = (op.perform m.untraced).2.snapshot := by
  rw [op.perform_eq m]
  rfl

/-- Operations on machines that differ in their traces only leave machines that do so too. -/
lemma untraced_perform {a b : Machine} (h : b.untraced = a.untraced) (op : Operation) :
    (op.perform b).2.untraced = (op.perform a).2.untraced := by
  rw [op.perform_eq a, op.perform_eq b, h]
  rfl

lemma untraced_afterAll {a b : Machine} (h : b.untraced = a.untraced) (ops : List Operation) :
    (b.afterAll ops).untraced = (a.afterAll ops).untraced := by
  induction ops generalizing a b with
  | nil => exact h
  | cons op ops ih => exact ih (untraced_perform h op)

/-- A machine that has got the snapshot of another one with the same step limit and the same tracing
differs from it in its trace only. -/
lemma untraced_restore_snapshot {a b : Machine} (hlimit : b.stepLimit = a.stepLimit)
    (htracing : b.tracing = a.tracing) : (b.restore a.snapshot).untraced = a.untraced := by
  unfold untraced restore
  rw [hlimit, htracing]
  rfl

/-- A snapshot of the latest version is what a machine shows that it was put into. -/
lemma snapshot_restore (m : Machine) {s : Snapshot} (hversion : s.version = 1) :
    (m.restore s).snapshot = s := by
  unfold snapshot restore
  rw [← hversion]

/-- Everything that the further execution of a machine depends on is in its snapshot.  If `b` has
the step limit and the tracing of `a`, and whatever its program, memory and registers are, then
after any operations on `a` and on `b` with the snapshot of `a` the next one gets the same answer,
leaves the same snapshot and notes the same lines.  A snapshot of the latest version can be put into
any machine and taken from it again unchanged, and a machine that is built from it with other
settings differs from it in the memory limit only. -/
theorem after_restore_snapshot :
    (∀ a b : Machine, b.stepLimit = a.stepLimit → b.tracing = a.tracing →
      ∀ (earlier : List Operation) (op : Operation),
        let original := a.afterAll earlier
        let copy := (b.restore a.snapshot).afterAll earlier
        (op.perform copy).1 = (op.perform original).1 ∧
        (op.perform copy).2.snapshot = (op.perform original).2.snapshot ∧
        ∃ lines,
          (op.perform original).2.traceLines =
            (if op.clearsTrace then [] else original.traceLines) ++ lines ∧
          (op.perform copy).2.traceLines =
            (if op.clearsTrace then [] else copy.traceLines) ++ lines) ∧
    (∀ (s : Snapshot) (m : Machine), s.version = 1 → (m.restore s).snapshot = s) ∧
    ∀ (s : Snapshot) (settings : Settings), s.version = 1 →
      (ofSnapshotWith s settings).snapshot =
        { s with tape := { s.tape with limit := settings.memoryLimit } } := by
  refine ⟨?_, fun s m hversion => snapshot_restore m hversion, ?_⟩
  · intro a b hlimit htracing earlier op original copy
    have hsame : copy.untraced = original.untraced :=
      untraced_afterAll (untraced_restore_snapshot hlimit htracing) earlier
    refine ⟨?_, ?_, (op.perform original.untraced).2.traceLines, traceLines_perform original op, ?_⟩
    · rw [op.perform_eq copy, op.perform_eq original, hsame]
    · rw [snapshot_perform copy, snapshot_perform original, hsame]
    · rw [traceLines_perform copy, hsame]
  · intro s settings hversion
    -- The memory limit is changed after the snapshot has been put into the new machine.
    have hrestored := snapshot_restore (boot s.program settings) hversion
    exact congrArg (fun s' : Snapshot =>
      { s' with tape := { s.tape with limit := settings.memoryLimit } }) hrestored

/-- A machine that adds up two inputs and emits the sum, after it has got the first one. -/
def adder : Machine := (boot ⟨#[3, 11, 3, 12, 1, 11, 12, 11, 4, 11, 99, 0, 0].map Word.ofCount⟩
  { tracing := true }).afterAll [.run [Word.ofCount 5]]

/-- A machine that emits the same value again and again, after it has done so once. -/
def repeater : Machine := (boot ⟨#[104, 7, 1105, 1, 0].map Word.ofCount⟩
  { tracing := true }).afterAll [.step]

/-- The second input, and a run. -/
def addition : Operation := .run [Word.ofCount 6]

/-- `repeater`, which has noted an instruction of its own, goes on as `adder` once it has got its
snapshot: it waits for the second input, gets it and halts. -/
theorem after_restore_snapshot_adder :
    (adder.traceLines = ["[0000] In [11]  rb=0"] ∧
      (repeater.restore adder.snapshot).traceLines = ["[0000] Out #7  rb=0"]) ∧
    (addition.perform ((repeater.restore adder.snapshot).afterAll [.run []])).2.snapshot =
      (addition.perform (adder.afterAll [.run []])).2.snapshot ∧
    (addition.perform (adder.afterAll [.run []])).2.status = .halted ∧
    (repeater.restore adder.snapshot).snapshot = adder.snapshot ∧
    (ofSnapshotWith adder.snapshot { memoryLimit := 20 }).snapshot =
      { adder.snapshot with tape := { adder.snapshot.tape with limit := 20 } } := by
  obtain ⟨hsame, hrestored, hbuilt⟩ := after_restore_snapshot
  have hlimit : repeater.stepLimit = adder.stepLimit := by decide +kernel
  have htracing : repeater.tracing = adder.tracing := by decide +kernel
  obtain ⟨_, hsnapshot, _⟩ := hsame adder repeater hlimit htracing [.run []] addition
  have hnoted : adder.traceLines = ["[0000] In [11]  rb=0"] ∧
      (repeater.restore adder.snapshot).traceLines = ["[0000] Out #7  rb=0"] := by
    decide +kernel
  have hhalted : (addition.perform (adder.afterAll [.run []])).2.status = .halted := by
    decide +kernel
  exact ⟨hnoted, hsnapshot, hhalted, hrestored _ _ rfl, hbuilt _ _ rfl⟩

end Intcode.Machine
