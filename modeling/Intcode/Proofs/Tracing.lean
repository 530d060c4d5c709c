import Intcode.Proofs.ExactArithmetic
import Intcode.Proofs.Limits
import Intcode.Proofs.Traffic
import Mathlib.Data.List.Forall2

/-!
# What traces tell

A machine that is tracing notes every instruction that it completes, and nothing else
(`Machine.trace_tells_execution`).  An entry of the trace shows the machine as it was before the
instruction (`TraceEntry.IsOf`), although the entry is added behind it: the instruction may have
overwritten its own cells or moved the relative base in the meantime.

An entry shows parameters by looking at them, and one that cannot be looked at as zero.  This never
happens, since an instruction that is completed has read all its parameters
(`Machine.exists_locate_of_request`).  The cells that are kept for it in the meantime make no
difference to what is shown (`Checked.note_of_grown`).
-/

namespace Intcode

namespace Tape

variable {t : Tape} {u : UInt64} {place : Nat}

/-- An unsigned number that is allowed as an address is the place of the cell. -/
lemma peek?_of_locate (h : t.locate (Word.ofCount u) = .ok place) :
    t.peek? (Word.ofCount u) = .ok (t.cell u.toNat) := by
  obtain ⟨hnonneg, _, hplace⟩ := locate_eq_ok_iff.1 h
  have hword : u.toNat < 9223372036854775808 := by
    by_contra hge
    have hneg := Word.toInt_ofCount_neg (Nat.le_of_not_lt hge)
    omega
  rw [Word.toInt_ofCount_of_lt hword, Int.toNat_natCast] at hplace
  unfold peek?
  rw [h, ← hplace]
  rfl

end Tape

/-- The entry shows the instruction at which a machine stands, as it is before it is executed. -/
structure TraceEntry.IsOf (e : TraceEntry) (m : Machine) : Prop where
  /-- The entry shows where the machine stands. -/
  ip : e.ip = m.ip
  /-- It shows the instruction that the word there is decoded to. -/
  instruction : Instruction.decode (m.tape.cell m.ip.toNat) = .ok e.instruction
  /-- It shows the words behind that one, zero past the end of the tape. -/
  params : e.params =
    (List.range e.instruction.opcode.arity).map fun k => m.tape.cell (m.ip.toNat + 1 + k)
  /-- It shows the relative base. -/
  relativeBase : e.relativeBase = m.relativeBase
  /-- No parameter is shown as zero because it cannot be looked at. -/
  readable : ∀ k < e.instruction.opcode.arity,
    m.tape.peek? (Access.paramAddress m.ip k) = .ok (m.tape.cell (m.ip.toNat + 1 + k))

namespace Machine

variable {σ : Type} {port : Port σ} {m m' m'' : Machine} {s s' : σ} {status : Status}
  {i : Instruction} {action : Action} {entries entries' : List TraceEntry}

/-- The second machine has noted some entries behind those of the first one, and it has counted as
many instructions more. -/
structure Notes (m m' : Machine) (entries : List TraceEntry) : Prop where
  /-- The lines of the entries have been added, one for each of them. -/
  lines : m'.traceLines = m.traceLines ++ entries.map fun e => String.ofList e.line
  /-- That many instructions have been counted. -/
  steps : m'.steps.toNat = m.steps.toNat + entries.length

lemma notes_nil (htrace : m'.trace = m.trace) (hsteps : m'.steps = m.steps) : m.Notes m' [] where
  lines := by rw [traceLines, htrace, List.map_nil, List.append_nil, traceLines]
  steps := by rw [hsteps, List.length_nil, Nat.add_zero]

lemma notes_single {e : TraceEntry} (htrace : m'.trace = m.trace.push e)
    (hsteps : m'.steps.toNat = m.steps.toNat + 1) : m.Notes m' [e] where
  lines := by
    rw [traceLines, htrace, Array.toList_push, List.map_append]
    rfl
  steps := hsteps

lemma Notes.trans (h : m.Notes m' entries) (h' : m'.Notes m'' entries') :
    m.Notes m'' (entries ++ entries') where
  lines := by rw [h'.lines, h.lines, List.map_append, List.append_assoc]
  steps := by rw [h'.steps, h.steps, List.length_append, Nat.add_assoc]

/-! ## Single instructions -/

/-- The entry for an instruction that makes a request shows the machine as it is. -/
lemma isOf_traceEntry (h : m.request = .ok (i, action)) : (m.traceEntry i).IsOf m := by
  obtain ⟨i', fetched, hfetch, hrest⟩ := Access.exists_of_run_bind (prepare_of_request h)
  obtain ⟨action', resolved, _, hpure⟩ := Access.exists_of_run_bind hrest
  cases hpure
  have hip := Checked.lt_capacity_of_fetch hfetch
  have hparam (k : Nat) (hk : k < i.opcode.arity) :
      m.tape.peek? (Access.paramAddress m.ip k) = .ok (m.tape.cell (m.ip.toNat + 1 + k)) := by
    obtain ⟨place, hlocate⟩ := exists_locate_of_request h hk
    have hthree : k < 3 := Nat.lt_of_lt_of_le hk (Checked.arity_le_three i.opcode)
    rw [← Checked.toNat_place hip hthree]
    exact Tape.peek?_of_locate hlocate
  refine ⟨rfl, ?_, ?_, rfl, hparam⟩
  · obtain ⟨word, hread, hdecode⟩ := Access.exists_read_of_fetch hfetch
    obtain ⟨place, hlocate⟩ := (Access.needs_read m.ip (Word.ofCount m.ip)).bind hfetch
    have hword := (Tape.peek?_of_read hread).symm.trans (Tape.peek?_of_locate hlocate)
    cases hword
    exact hdecode
  · refine List.map_congr_left fun k hk => ?_
    have hlook := hparam k (List.mem_range.1 hk)
    unfold Access.paramAddress at hlook
    simp only [hlook]

/-- A machine that is tracing notes the instruction that it completes. -/
lemma Completes.exists_trace_eq (h : Completes port m s status m' s') (htracing : m.tracing) :
    m.IsReady ∧ m'.steps = m.steps + 1 ∧
      ∃ i action, m.request = .ok (i, action) ∧ m'.trace = m.trace.push (m.traceEntry i) := by
  have hpush (i : Instruction) :
      (m.prepared.complete (m.prepared.note i) m.ip status).trace =
        m.trace.push (m.traceEntry i) := by
    have hnote : m.note i = some (m.traceEntry i) := if_pos htracing
    have hsame : m.note i = m.prepared.note i := Checked.note_of_grown m.grown_prepared m i
    rw [← hsame, hnote]
    rfl
  simp only [complete] at hpush
  cases h with
  | stores hready hrequest | takes hready hrequest | receives hready hrequest
  | emits hready hrequest | jumps hready hrequest | rebases hready hrequest
  | halts hready hrequest =>
    refine ⟨hready, rfl, _, _, hrequest, ?_⟩
    simp only [putting, complete]
    exact hpush _

/-- An instruction is not completed if the machine has halted before, if it is suspended, or if it
faults. -/
lemma completesNext_eq_false_iff :
    m.completesNext port s = false ↔
      m.status = .halted ∨ (m.execute port s).answer = .ok .needsInput ∨
        ∃ fault, (m.execute port s).answer = .error fault := by
  unfold completesNext
  cases (m.execute port s).answer with
  | error fault => simp
  | ok status =>
    by_cases hhalted : m.status = .halted <;> simp [hhalted]

/-- A machine that is tracing notes and counts the instruction that it completes. -/
lemma exists_notes_of_completesNext (h : m.completesNext port s = true) (htracing : m.tracing) :
    ∃ e : TraceEntry, e.IsOf m ∧ m.Notes (m.execute port s).machine [e] := by
  rcases hexecute : m.execute port s with ⟨fault | status, m', s'⟩
  · rw [(faults_of_execute_eq hexecute).completesNext] at h
    cases h
  · rcases completes_of_execute_eq hexecute with hcompletes | ⟨_, hsuspends⟩ | hrests
    · obtain ⟨hready, hsteps, i, action, hrequest, htrace⟩ := hcompletes.exists_trace_eq htracing
      refine ⟨m.traceEntry i, isOf_traceEntry hrequest, notes_single htrace ?_⟩
      rw [hsteps, hready.toNat_succ_steps]
    · rw [hsuspends.completesNext] at h
      cases h
    · rw [hrests.completesNext port] at h
      cases h

/-- What is not completed is neither noted nor counted. -/
lemma notes_of_incomplete (h : m.completesNext port s = false) :
    m.Notes (m.execute port s).machine [] := by
  refine machine_execute (P := fun m' => m.Notes m' []) ?_ ?_ ?_ ?_
  · intro fault m' s' hfaults
    cases hfaults <;> exact notes_nil rfl rfl
  · intro status m' s' hcompletes
    rw [hcompletes.completesNext] at h
    cases h
  · intro m' s' hsuspends
    rw [hsuspends.machine]
    exact notes_nil rfl rfl
  · intro _
    exact notes_nil rfl rfl

/-- An execution does not change whether the machine is tracing. -/
lemma tracing_execute (port : Port σ) (m : Machine) (s : σ) :
    (m.execute port s).machine.tracing = m.tracing := by
  refine machine_execute (P := fun m' => m'.tracing = m.tracing) ?_ ?_ ?_ ?_
  · intro fault m' s' hfaults
    cases hfaults <;> rfl
  · intro status m' s' hcompletes
    cases hcompletes <;> simp only [putting, complete, prepared]
  · intro m' s' hsuspends
    rw [hsuspends.machine]
    rfl
  · intro _
    rfl

/-! ## Runs -/

/-- Those of the machines that have completed an instruction. -/
def executed (port : Port σ) (visited : List (Machine × σ)) : List Machine :=
  (visited.filter fun v => v.1.completesNext port v.2).map Prod.fst

lemma executed_single (port : Port σ) (m : Machine) (s : σ) :
    executed port [(m, s)] = if m.completesNext port s then [m] else [] := by
  cases hnext : m.completesNext port s <;> simp [executed, hnext]

lemma executed_cons (port : Port σ) (m : Machine) (s : σ) (visited : List (Machine × σ)) :
    executed port ((m, s) :: visited) = executed port [(m, s)] ++ executed port visited := by
  unfold executed
  rw [← List.map_append, ← List.filter_append]
  rfl

/-- The entries show the machines one by one. -/
def AreOf (entries : List TraceEntry) (machines : List Machine) : Prop :=
  List.Forall₂ (fun e m => TraceEntry.IsOf e m) entries machines

/-- What an execution notes shows the machine if the instruction is completed. -/
lemma exists_notes_execute (port : Port σ) (s : σ) (htracing : m.tracing) :
    ∃ entries, AreOf entries (executed port [(m, s)]) ∧
      m.Notes (m.execute port s).machine entries := by
  cases hnext : m.completesNext port s with
  | true =>
    obtain ⟨e, hof, hnotes⟩ := exists_notes_of_completesNext hnext htracing
    refine ⟨[e], ?_, hnotes⟩
    rw [executed_single, if_pos hnext]
    exact .cons hof .nil
  | false =>
    refine ⟨[], ?_, notes_of_incomplete hnext⟩
    rw [executed_single, if_neg (ne_true_of_eq_false hnext)]
    exact .nil

/-- What a run notes shows the machines that have completed an instruction. -/
lemma exists_notes_runWith (port : Port σ) (m : Machine) (s : σ) (htracing : m.tracing) :
    ∃ entries, AreOf entries (executed port (visits port m s)) ∧
      m.Notes (m.runWith port s).machine entries := by
  induction m, s using runWith_induction port with
  | fault m s fault m' s' hturn hrun =>
    have hnotes := exists_notes_execute port s htracing
    rw [hturn] at hnotes
    rw [hrun, visits_of_fault hturn]
    exact hnotes
  | stop m s stop m' s' hturn hrun =>
    have hnotes := exists_notes_execute port s htracing
    rw [hturn] at hnotes
    rw [hrun, visits_of_stop hturn]
    exact hnotes
  | step m s status m' s' hturn hhalted hneeds hrun ih =>
    obtain ⟨first, hfirst, hnotes⟩ := exists_notes_execute port s htracing
    have htracing' := tracing_execute port m s
    rw [hturn] at hnotes htracing'
    obtain ⟨rest, hrest, hnotes'⟩ := ih (htracing'.trans htracing)
    refine ⟨first ++ rest, ?_, ?_⟩
    · rw [visits_of_step hturn hhalted hneeds, executed_cons]
      exact List.rel_append hfirst hrest
    · rw [hrun]
      exact hnotes.trans hnotes'

/-- A machine that is tracing tells what it does.  Whatever the port is like, an instruction that is
completed adds a single line, which shows the machine as it was before; an execution that faults, is
suspended or finds that the machine has halted adds none.  Hence a run adds one line for each
instruction that it completes, that is, as many as it counts. -/
theorem trace_tells_execution (htracing : m.tracing) (port : Port σ) (s : σ) :
    (m.completesNext port s → ∃ e : TraceEntry, e.IsOf m ∧
        m.Notes (m.execute port s).machine [e]) ∧
      (m.status = .halted ∨ (m.execute port s).answer = .ok .needsInput ∨
          (∃ fault, (m.execute port s).answer = .error fault) →
        m.Notes (m.execute port s).machine []) ∧
      ∃ entries, AreOf entries (executed port (visits port m s)) ∧
        m.Notes (m.runWith port s).machine entries := by
  refine ⟨fun hnext => exists_notes_of_completesNext hnext htracing, fun hnone => ?_,
    exists_notes_runWith port m s htracing⟩
  exact notes_of_incomplete (completesNext_eq_false_iff.2 hnone)

/-- A machine that overwrites the instruction which it executes, moves the relative base, and
halts. -/
def overwriting : Machine :=
  boot ⟨#[1101, 1, 2, 0, 109, 5, 99].map Word.ofCount⟩ { tracing := true }

/-- What is left of `overwriting` by a run. -/
def overwritten : Machine := (overwriting.runWith Port.detached ()).machine

/-- The first line shows the instruction that has been overwritten, and the second one the relative
base that has been left.  Once the machine has halted no line is added any more. -/
theorem trace_tells_execution_overwriting :
    overwritten.traceLines =
        ["[0000] Add #1, #2 -> [0]  rb=0", "[0004] Arb #5  rb=0", "[0006] Halt  rb=5"] ∧
      (∃ e : TraceEntry, e.IsOf overwriting ∧
        overwriting.Notes (overwriting.execute Port.detached ()).machine [e]) ∧
      overwritten.Notes (overwritten.execute Port.detached ()).machine [] ∧
      ∃ entries, AreOf entries (executed Port.detached (visits Port.detached overwriting ())) ∧
        overwriting.Notes overwritten entries := by
  have hlines : overwritten.traceLines =
      ["[0000] Add #1, #2 -> [0]  rb=0", "[0004] Arb #5  rb=0", "[0006] Halt  rb=5"] := by
    decide +kernel
  have hnext : overwriting.completesNext Port.detached () = true := by decide +kernel
  have htracing : overwritten.tracing = true := by decide +kernel
  have hhalted : overwritten.status = .halted := by decide +kernel
  obtain ⟨hstep, _, hrun⟩ := trace_tells_execution (m := overwriting) rfl Port.detached ()
  obtain ⟨_, hrest, _⟩ := trace_tells_execution htracing Port.detached ()
  exact ⟨hlines, hstep hnext, hrest (.inl hhalted), hrun⟩

end Machine

end Intcode
