import Intcode.Proofs.FaultFrame
import Intcode.Proofs.Waiting

/-!
# The life of a machine

What is true of a machine throughout its life, as long as nobody changes its memory from outside
(`orderly_of_comesFrom`).  A machine may be stepped, run, fed and reset, with and without success,
and it may be put back into the state of another machine that was built from the same program with
the same memory (`ComesFrom`).

* A machine that says that it has put out a value remembers that value.
* A machine that says that it has halted stands at a halt instruction, even if the program has
  written that instruction itself; and it does nothing any more.  All that can be done to it without
  resetting it is to queue input by a run, and to change its step limit.
* The tape keeps the cells of the program at least, and no other cells at its limit or above.
-/

namespace Intcode

/-! ## Tapes that are written -/

namespace Tape

variable {t t' : Tape}

/-- The second tape is the first one after some growth, with at most one word changed. -/
def Written (t t' : Tape) : Prop :=
  t.Grown t' ∨ ∃ t'' place value, t.Grown t'' ∧ t' = t''.put place value

lemma Written.limit_eq (h : t.Written t') : t'.limit = t.limit := by
  rcases h with hgrown | ⟨t'', place, value, hgrown, rfl⟩
  · exact hgrown.limit_eq
  · rw [limit_put, hgrown.limit_eq]

lemma Written.size_le (h : t.Written t') : t.size ≤ t'.size := by
  rcases h with hgrown | ⟨t'', place, value, hgrown, rfl⟩
  · exact hgrown.size_le
  · rw [size_put]
    exact hgrown.size_le

lemma Written.size_le_max (h : t.Written t') : t'.size ≤ max t.size t.limit.toNat := by
  rcases h with hgrown | ⟨t'', place, value, hgrown, rfl⟩
  · exact hgrown.size_le_max
  · rw [size_put]
    exact hgrown.size_le_max

end Tape

namespace Machine

variable {σ : Type} {m m' : Machine} {op : Operation} {program : Program} {limit : UInt64}

/-- The cell at a place within reach is kept besides the cells that an instruction reads. -/
lemma grown_extend_prepared {address : Word} {place : Nat}
    (hreach : m.tape.reach address = .ok place) : m.tape.Grown (m.prepared.tape.extend place) := by
  rw [← reach_prepared] at hreach
  exact m.grown_prepared.trans (Tape.grown_extend hreach)

/-- Executing an instruction writes one word at most. -/
lemma written_execute (port : Port σ) (m : Machine) (s : σ) :
    m.tape.Written (m.execute port s).machine.tape := by
  refine machine_execute (P := fun m' => m.tape.Written m'.tape) ?_ ?_ ?_ ?_
  · intro fault m' s' hfaults
    exact Or.inl hfaults.grown
  · intro status m' s' hcompletes
    cases hcompletes with
    | stores _ _ hreach | takes _ _ _ hreach | receives _ _ _ _ hreach =>
      exact Or.inr ⟨_, _, _, grown_extend_prepared hreach, rfl⟩
    | emits | jumps | rebases | halts => exact Or.inl m.grown_prepared
  · intro m' s' hsuspends
    rw [hsuspends.machine]
    exact Or.inl m.grown_prepared
  · intro _
    exact Or.inl .rfl

/-- Executing an instruction does not change the program that the machine was built from. -/
lemma program_execute (port : Port σ) (m : Machine) (s : σ) :
    (m.execute port s).machine.program = m.program := by
  refine machine_execute (P := fun m' => m'.program = m.program) ?_ ?_ ?_ ?_
  · intro fault m' s' hfaults
    rw [hfaults.machine_eq]
  · intro status m' s' hcompletes
    cases hcompletes <;> rfl
  · intro m' s' hsuspends
    rw [hsuspends.machine]
    rfl
  · intro _
    rfl

/-! ## Outputs and ends -/

/-- If the machine says that it has put out a value, this is the last one. -/
def Remembers (m : Machine) : Prop :=
  ∀ value, m.status = .hasOutput value → m.lastOutput = some value

lemma Remembers.execute (h : m.Remembers) (port : Port σ) (s : σ) :
    (m.execute port s).machine.Remembers := by
  refine machine_execute ?_ ?_ ?_ ?_
  · intro fault m' s' hfaults
    rw [hfaults.machine_eq]
    exact h
  · intro status m' s' hcompletes value hstatus
    cases hcompletes with
    | emits =>
      cases hstatus
      rfl
    | stores | takes | receives | jumps | rebases | halts => cases hstatus
  · intro m' s' hsuspends value hstatus
    rw [hsuspends.machine] at hstatus
    cases hstatus
  · intro _
    exact h

/-- The word at which the machine stands is a halt instruction. -/
def StandsAtEnd (m : Machine) : Prop :=
  ∃ word i, m.peek? (Word.ofCount m.ip) = .ok word ∧ Instruction.decode word = .ok i ∧
    i.opcode = .halt

/-- Where a machine stands is the same after some growth. -/
lemma StandsAtEnd.of_grown (h : m.StandsAtEnd) (hgrown : m.tape.Grown m'.tape)
    (hip : m'.ip = m.ip) : m'.StandsAtEnd := by
  obtain ⟨word, i, hpeek, hdecode, hopcode⟩ := h
  refine ⟨word, i, ?_, hdecode, hopcode⟩
  rw [hip, peek?_of_grown hgrown hip, hpeek]

/-- A machine that asks to halt stands at a halt instruction. -/
lemma standsAtEnd_of_request {i : Instruction} (h : m.request = .ok (i, .halt)) :
    m.StandsAtEnd := by
  obtain ⟨⟨word, hpeek, hdecode⟩, hopcode⟩ := exists_decode_of_request h
  exact ⟨word, i, hpeek, hdecode, List.mem_singleton.1 hopcode⟩

/-- If the machine says that it has halted, it stands at a halt instruction. -/
def EndsTruly (m : Machine) : Prop := m.status = .halted → m.StandsAtEnd

lemma EndsTruly.execute (h : m.EndsTruly) (port : Port σ) (s : σ) :
    (m.execute port s).machine.EndsTruly := by
  refine machine_execute ?_ ?_ ?_ ?_
  · intro fault m' s' hfaults hstatus
    rw [hfaults.status_eq] at hstatus
    have hip : m'.ip = m.ip := by rw [hfaults.machine_eq]
    exact (h hstatus).of_grown hfaults.grown hip
  · intro status m' s' hcompletes hstatus
    cases hcompletes with
    | halts hready hrequest =>
      exact (standsAtEnd_of_request hrequest).of_grown m.grown_prepared rfl
    | stores | takes | receives | emits | jumps | rebases => cases hstatus
  · intro m' s' hsuspends hstatus
    rw [hsuspends.machine] at hstatus
    cases hstatus
  · intro _
    exact h

/-! ## Machines that have halted -/

lemma taking_of_halted (h : m.status = .halted) (values : List Word) :
    (Operation.taking m (m.provideAll values)).2 = m := by
  rcases Operation.taking_cases m values with hrefused | ⟨hrunning, _⟩
  · exact hrefused
  · exact absurd h hrunning

/-- What is done to a machine that has halted changes nothing but its queue and its step limit,
unless it is reset. -/
lemma perform_of_halted (h : m.status = .halted) (hplain : op.IsPlain) (hreset : op ≠ .reset) :
    (op.perform m).2 =
      { m with inputs := (op.perform m).2.inputs, stepLimit := (op.perform m).2.stepLimit } := by
  cases op with
  | step =>
    have hrests : (Operation.step.perform m).2 = m :=
      congrArg Turn.machine (execute_of_halted h Port.detached ())
    rw [hrests]
  | run values =>
    have hqueued : (m.queue values).status = .halted := h
    have hrests : ((Operation.run values).perform m).2 = m.queue values :=
      congrArg Turn.machine (runWith_of_halted hqueued Port.buffered ⟨[], #[]⟩)
    rw [hrests]
    rfl
  | runWith port s =>
    have hrests : ((Operation.runWith port s).perform m).2 = m :=
      congrArg Turn.machine (runWith_of_halted h port s)
    rw [hrests]
  | provide value =>
    have hrests : ((Operation.provide value).perform m).2 = m := taking_of_halted h [value]
    rw [hrests]
  | provideAll values =>
    have hrests : ((Operation.provideAll values).perform m).2 = m := taking_of_halted h values
    rw [hrests]
  | limitSteps | peek | snapshot => rfl
  | reset => exact absurd rfl hreset
  | poke | restore => exact hplain.elim

/-- A machine that has halted stays as it is, apart from its queue and its step limit, as long as it
is not reset. -/
lemma afterAll_of_halted (ops : List Operation) (h : m.status = .halted)
    (hops : ∀ op ∈ ops, op.IsPlain ∧ op ≠ .reset) :
    m.afterAll ops =
      { m with inputs := (m.afterAll ops).inputs, stepLimit := (m.afterAll ops).stepLimit } := by
  induction ops generalizing m with
  | nil => rfl
  | cons op ops ih =>
    obtain ⟨hplain, hreset⟩ := hops op (List.mem_cons_self ..)
    have hfirst := perform_of_halted h hplain hreset
    have hhalted : (op.perform m).2.status = .halted := by rw [hfirst, ← h]
    have hrest := ih hhalted fun op hop => hops op (List.mem_cons_of_mem _ hop)
    change (op.perform m).2.afterAll ops =
      { m with
        inputs := ((op.perform m).2.afterAll ops).inputs
        stepLimit := ((op.perform m).2.afterAll ops).stepLimit }
    rw [hrest, hfirst]

/-! ## The invariant -/

/-- The machines that come about from a program and a memory limit, by operations that leave the
memory to the machine and by putting in snapshots of machines that have come about in the same
way. -/
inductive ComesFrom (program : Program) (limit : UInt64) : Machine → Prop
  /-- A machine is built. -/
  | boot (settings : Settings) (hlimit : settings.memoryLimit = limit) :
    ComesFrom program limit (boot program settings)
  /-- An operation is performed, with or without success. -/
  | perform {m : Machine} (op : Operation) (h : ComesFrom program limit m) (hplain : op.IsPlain) :
    ComesFrom program limit (op.perform m).2
  /-- A snapshot is put in. -/
  | restore {m source : Machine} (h : ComesFrom program limit m)
    (hsource : ComesFrom program limit source) : ComesFrom program limit (m.restore source.snapshot)

/-- What is true of a machine that comes from a program and a memory limit. -/
structure IsOrderly (program : Program) (limit : UInt64) (m : Machine) : Prop where
  /-- The program is the one from which the machine was built. -/
  program_eq : m.program = program
  /-- The limit is the one with which the machine was built. -/
  limit_eq : m.tape.limit = limit
  /-- The machine remembers what it has put out. -/
  remembers : m.Remembers
  /-- The machine has halted where it says so. -/
  endsTruly : m.EndsTruly
  /-- The cells of the program are kept. -/
  le_size : program.cells.size ≤ m.tape.size
  /-- No other cells are kept from the limit on. -/
  size_le : m.tape.size ≤ max program.cells.size limit.toNat

lemma isOrderly_boot (program : Program) (settings : Settings) :
    IsOrderly program settings.memoryLimit (boot program settings) where
  program_eq := rfl
  limit_eq := rfl
  remembers _ hstatus := nomatch hstatus
  endsTruly hstatus := nomatch hstatus
  le_size := Nat.le_refl _
  size_le := Nat.le_max_left _ _

namespace IsOrderly

variable (h : IsOrderly program limit m)

include h

/-- One instruction keeps a machine orderly. -/
lemma execute (port : Port σ) (s : σ) : IsOrderly program limit (m.execute port s).machine := by
  have hwritten := m.written_execute port s
  -- Cells beyond the program have been kept only below the limit.
  have hsize : (m.execute port s).machine.tape.size ≤ max program.cells.size limit.toNat := by
    have hmax := hwritten.size_le_max
    have hbefore := h.size_le
    rw [h.limit_eq] at hmax
    omega
  exact {
    program_eq := (m.program_execute port s).trans h.program_eq
    limit_eq := hwritten.limit_eq.trans h.limit_eq
    remembers := h.remembers.execute port s
    endsTruly := h.endsTruly.execute port s
    le_size := Nat.le_trans h.le_size hwritten.size_le
    size_le := hsize }

/-- A run keeps a machine orderly. -/
lemma runWith (port : Port σ) (s : σ) : IsOrderly program limit (m.runWith port s).machine :=
  machine_runWith (fun _ s h => h.execute port s) h s

/-- What is queued makes no difference. -/
lemma queue (values : List Word) : IsOrderly program limit (m.queue values) :=
  ⟨h.program_eq, h.limit_eq, h.remembers, h.endsTruly, h.le_size, h.size_le⟩

/-- A machine stays orderly when it takes input. -/
lemma taking (values : List Word) :
    IsOrderly program limit (Operation.taking m (m.provideAll values)).2 := by
  rcases Operation.taking_cases m values with hrefused | ⟨_, hqueued⟩
  · rw [hrefused]
    exact h
  rw [hqueued]
  by_cases hneeds : m.status = .needsInput
  · rw [if_pos hneeds]
    exact {
      program_eq := h.program_eq
      limit_eq := h.limit_eq
      remembers := fun _ hstatus => nomatch hstatus
      endsTruly := fun hstatus => nomatch hstatus
      le_size := h.le_size
      size_le := h.size_le }
  · rw [if_neg hneeds]
    exact h.queue values

/-- Every operation keeps a machine orderly. -/
lemma perform (hplain : op.IsPlain) : IsOrderly program limit (op.perform m).2 := by
  cases op with
  | step => exact h.execute Port.detached ()
  | run values => exact (h.queue values).runWith Port.buffered ⟨[], #[]⟩
  | runWith port s => exact h.runWith port s
  | provide value => exact h.taking [value]
  | provideAll values => exact h.taking values
  | limitSteps steps =>
    exact ⟨h.program_eq, h.limit_eq, h.remembers, h.endsTruly, h.le_size, h.size_le⟩
  | reset =>
    have hboot := isOrderly_boot m.program ⟨m.stepLimit, m.tape.limit, m.tracing⟩
    rw [h.program_eq, h.limit_eq] at hboot
    change IsOrderly program limit (boot m.program ⟨m.stepLimit, m.tape.limit, m.tracing⟩)
    rwa [h.program_eq, h.limit_eq]
  | peek | snapshot => exact h
  | poke | restore => exact hplain.elim

/-- A machine that is put into the state of an orderly one is orderly. -/
lemma restore (m' : Machine) : IsOrderly program limit (m'.restore m.snapshot) :=
  ⟨h.program_eq, h.limit_eq, h.remembers, h.endsTruly, h.le_size, h.size_le⟩

end IsOrderly

lemma ComesFrom.isOrderly (h : ComesFrom program limit m) : IsOrderly program limit m := by
  induction h with
  | boot settings hlimit => exact hlimit ▸ isOrderly_boot program settings
  | perform op h hplain ih => exact ih.perform hplain
  | restore h hsource ih ihsource => exact ihsource.restore _

/-- A machine that comes from a program and a memory limit remembers the value that it says it has
put out.  If it says that it has halted, it stands at a halt instruction, and nothing but its queue
and its step limit changes as long as it is not reset.  It keeps the cells of the program, and no
others from its limit on. -/
theorem orderly_of_comesFrom (h : ComesFrom program limit m) :
    (∀ value, m.status = .hasOutput value → m.lastOutput = some value) ∧
      (m.status = .halted →
        m.StandsAtEnd ∧
          ∀ ops : List Operation, (∀ op ∈ ops, op.IsPlain ∧ op ≠ .reset) →
            m.afterAll ops =
              { m with
                inputs := (m.afterAll ops).inputs
                stepLimit := (m.afterAll ops).stepLimit }) ∧
        (m.program = program ∧ m.tape.limit = limit) ∧
          program.cells.size ≤ m.tape.size ∧
            m.tape.size ≤ max program.cells.size limit.toNat := by
  have horderly := h.isOrderly
  refine ⟨horderly.remembers, ?_, ⟨horderly.program_eq, horderly.limit_eq⟩, horderly.le_size,
    horderly.size_le⟩
  intro hhalted
  exact ⟨horderly.endsTruly hhalted, fun ops => afterAll_of_halted ops hhalted⟩

/-- A program that puts out seven and then writes a halt instruction behind its end. -/
def signingOff : Program :=
  ⟨#[Word.ofCount 104, Word.ofCount 7, Word.ofCount 1101, Word.ofCount 49, Word.ofCount 50,
    Word.ofCount 6]⟩

/-- A machine that has executed `signingOff` to its end. -/
def signedOff : Machine := ((boot signingOff {}).run []).2

/-- `signedOff` stands at the instruction that it has written, and stays there. -/
theorem orderly_of_comesFrom_signedOff :
    ComesFrom signingOff 16777216 signedOff ∧ signedOff.status = .halted ∧
      signedOff.StandsAtEnd ∧ signedOff.tape.size = 7 ∧
        signedOff.afterAll [.run [1], .step] =
          { signedOff with
            inputs := (signedOff.afterAll [.run [1], .step]).inputs
            stepLimit := (signedOff.afterAll [.run [1], .step]).stepLimit } := by
  have hcomes : ComesFrom signingOff 16777216 signedOff :=
    .perform (.run []) (.boot {} rfl) trivial
  have hhalted : signedOff.status = .halted := by decide +kernel
  have hsize : signedOff.tape.size = 7 := by decide +kernel
  have hops : ∀ op ∈ [Operation.run [1], .step], op.IsPlain ∧ op ≠ .reset := by
    intro op hop
    rcases List.mem_cons.1 hop with rfl | hlast
    · exact ⟨trivial, nofun⟩
    · rw [List.mem_singleton.1 hlast]
      exact ⟨trivial, nofun⟩
  obtain ⟨hend, hrest⟩ := (orderly_of_comesFrom hcomes).2.1 hhalted
  exact ⟨hcomes, hhalted, hend, hsize, hrest _ hops⟩

end Machine

end Intcode
