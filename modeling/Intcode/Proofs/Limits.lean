import Intcode.Proofs.Completion

/-!
# Limits and tracing

What a machine computes does not depend on its limits, as long as they are not reached, nor on
whether it notes what it executes.  Three facts make this precise (`runWith_independent`).

* Whether executed instructions are noted makes a difference to the notes only.
* A run that stops without a fault stops in the same way under greater limits.
* A run that has used up its steps can be taken up again with more of them, and comes to what it
  would have come to with more steps from the beginning.

The second fact rests on the reading stage of instructions.  An access that answers has been refused
no address, and so gives the same answer under a greater limit (`Access.Lifts`).  A trace shows
parameters by looking at them; those of an instruction that is completed have all been read
(`Access.Needs`), so that they are shown in the same way, too.
-/

namespace Intcode

/-! ## Tapes under another limit -/

namespace Tape

variable {t : Tape} {address : Word} {place : Nat} {limit : UInt64}

/-- The tape with another limit. -/
def withLimit (t : Tape) (limit : UInt64) : Tape := { t with limit := limit }

/-- A greater limit allows what is allowed. -/
lemma locate_withLimit (h : t.locate address = .ok place) (hle : t.limit ≤ limit) :
    (t.withLimit limit).locate address = .ok place := by
  obtain ⟨hneg, hlt, hplace⟩ := locate_eq_ok_iff.1 h
  exact locate_eq_ok_iff.2 ⟨hneg, Nat.lt_of_lt_of_le hlt (UInt64.le_iff_toNat_le.1 hle), hplace⟩

/-- An address that is allowed shows the same word under a greater limit. -/
lemma peek?_withLimit (h : t.locate address = .ok place) (hle : t.limit ≤ limit) :
    (t.withLimit limit).peek? address = t.peek? address := by
  unfold peek?
  rw [locate_withLimit h hle, h]
  rfl

/-- What is within reach is so under a greater limit. -/
lemma reach_withLimit (h : t.reach address = .ok place) (hle : t.limit ≤ limit) :
    (t.withLimit limit).reach address = .ok place := by
  obtain ⟨hlocate, hlt⟩ := reach_eq_ok_iff.1 h
  exact reach_eq_ok_iff.2 ⟨locate_withLimit hlocate hle, hlt⟩

lemma extend_withLimit (t : Tape) (limit : UInt64) (i : Nat) :
    (t.withLimit limit).extend i = (t.extend i).withLimit limit := by
  unfold extend withLimit
  split
  · rfl
  · rfl

end Tape

/-! ## Accesses under another limit -/

namespace Access

variable {α β : Type} {x : Access α} {f : α → Access β} {address : Word}

/-- If the access answers, it leaves the limit as it is, and under a greater limit it gives the same
answer and keeps the same cells. -/
def Lifts (x : Access α) : Prop :=
  ∀ ⦃t t' : Tape⦄ ⦃a : α⦄, x.run t = (.ok a, t') →
    t'.limit = t.limit ∧
      ∀ limit, t.limit ≤ limit → x.run (t.withLimit limit) = (.ok a, t'.withLimit limit)

lemma lifts_pure (a : α) : (pure a : Access α).Lifts := by
  intro t t' b hrun
  cases hrun
  exact ⟨rfl, fun limit _ => rfl⟩

lemma lifts_throw (fault : Fault) : (throw fault : Access α).Lifts := by
  intro t t' a hrun
  cases hrun

lemma Lifts.bind (hx : x.Lifts) (hf : ∀ a, (f a).Lifts) : (x >>= f).Lifts := by
  intro t t' b hrun
  obtain ⟨a, t'', hfirst, hrest⟩ := exists_of_run_bind hrun
  obtain ⟨hlimit, hx⟩ := hx hfirst
  obtain ⟨hlimit', hf⟩ := hf a hrest
  refine ⟨hlimit'.trans hlimit, fun limit hle => ?_⟩
  rw [run_bind, hx limit hle]
  exact hf limit (hlimit.symm ▸ hle)

lemma lifts_read (ip : UInt64) (address : Word) : (read ip address).Lifts := by
  intro t t' value hrun
  cases hreach : t.reach address with
  | error refusal =>
    simp only [read, ExceptT.run, Tape.read, hreach] at hrun
    cases hrun
  | ok place =>
    simp only [read, ExceptT.run, Tape.read, hreach] at hrun
    cases hrun
    refine ⟨Tape.limit_extend t place, fun limit hle => ?_⟩
    simp only [read, ExceptT.run, Tape.read, Tape.reach_withLimit hreach hle, Tape.extend_withLimit]
    rfl

/-- What reads single words is read in the same way under a greater limit. -/
lemma IsReading.lifts (h : IsReading x) : x.Lifts := by
  induction h with
  | pure a => exact lifts_pure a
  | throw fault => exact lifts_throw fault
  | read ip address => exact lifts_read ip address
  | bind hx hf ihx ihf => exact ihx.bind ihf

/-- What an instruction asks for is asked for under a greater limit, too. -/
lemma lifts_prepare (ip : UInt64) (base : Word) : (prepare ip base).Lifts :=
  (isReading_prepare ip base).lifts

/-! ## Addresses that are needed -/

/-- The access does not answer unless an address is allowed. -/
def Needs (x : Access α) (address : Word) : Prop :=
  ∀ ⦃t t' : Tape⦄ ⦃a : α⦄, x.run t = (.ok a, t') → ∃ place, t.locate address = .ok place

lemma needs_read (ip : UInt64) (address : Word) : (read ip address).Needs address := by
  intro t t' value hrun
  cases hreach : t.reach address with
  | error refusal =>
    simp only [read, ExceptT.run, Tape.read, hreach] at hrun
    cases hrun
  | ok place => exact ⟨place, (Tape.reach_eq_ok_iff.1 hreach).1⟩

/-- What is needed first is needed. -/
lemma Needs.bind (h : x.Needs address) : (x >>= f).Needs address := by
  intro t t' b hrun
  obtain ⟨a, t'', hfirst, _⟩ := exists_of_run_bind hrun
  exact h hfirst

/-- What is needed later is needed. -/
lemma Lifts.needs_bind (hx : x.Lifts) (hf : ∀ a, (f a).Needs address) :
    (x >>= f).Needs address := by
  intro t t' b hrun
  obtain ⟨a, t'', hfirst, hrest⟩ := exists_of_run_bind hrun
  obtain ⟨place, hlocate⟩ := hf a hrest
  exact ⟨place, Tape.locate_congr (hx hfirst).1 address ▸ hlocate⟩

section Parameters

variable (ip : UInt64) (base : Word) (i : Instruction)

/-- The address of the parameter with a given index. -/
def paramAddress (ip : UInt64) (k : Nat) : Word := Word.ofCount (ip + 1 + UInt64.ofNat k)

lemma needs_operand (k : Nat) : (operand ip base i k).Needs (paramAddress ip k) :=
  (needs_read ip (paramAddress ip k)).bind

lemma needs_target (k : Nat) : (target ip base i k).Needs (paramAddress ip k) :=
  (needs_read ip (paramAddress ip k)).bind

lemma needs_combine (f : Word → Word → Option Word) {k : Nat} (hk : k < 3) :
    (combine ip base i f).Needs (paramAddress ip k) := by
  have hcases : k = 0 ∨ k = 1 ∨ k = 2 := by omega
  rcases hcases with rfl | rfl | rfl
  · exact (needs_operand ip base i 0).bind
  · refine (isReading_operand ip base i 0).lifts.needs_bind fun a => ?_
    exact (needs_operand ip base i 1).bind
  · refine (isReading_operand ip base i 0).lifts.needs_bind fun a => ?_
    refine (isReading_operand ip base i 1).lifts.needs_bind fun b => ?_
    exact (isReading_inRange ip _).lifts.needs_bind fun value => (needs_target ip base i 2).bind

lemma needs_branch (test : Word → Bool) {k : Nat} (hk : k < 2) :
    (branch ip base i test).Needs (paramAddress ip k) := by
  have hcases : k = 0 ∨ k = 1 := by omega
  rcases hcases with rfl | rfl
  · exact (needs_operand ip base i 0).bind
  · refine (isReading_operand ip base i 0).lifts.needs_bind fun condition => ?_
    exact (needs_operand ip base i 1).bind

/-- All parameters of an instruction are needed. -/
lemma needs_resolve {k : Nat} (hk : k < i.opcode.arity) :
    (resolve ip base i).Needs (paramAddress ip k) := by
  unfold resolve
  cases hop : i.opcode with
  | add | mul | lessThan | equals =>
    rw [hop] at hk
    exact needs_combine ip base i _ hk
  | jumpIfTrue | jumpIfFalse =>
    rw [hop] at hk
    exact needs_branch ip base i _ hk
  | input =>
    rw [hop] at hk
    rw [Nat.lt_one_iff.1 hk]
    exact (needs_target ip base i 0).bind
  | output | adjustRelativeBase =>
    rw [hop] at hk
    rw [Nat.lt_one_iff.1 hk]
    exact (needs_operand ip base i 0).bind
  | halt =>
    rw [hop] at hk
    exact absurd hk (Nat.not_lt_zero k)

end Parameters

end Access

namespace Machine

variable {σ : Type} {m m' : Machine} {port : Port σ} {s s' : σ} {status : Status} {stop : Stop}
  {fault : Fault} {i : Instruction} {action : Action} {steps limit : UInt64}

/-! ## Greater limits -/

/-- The machine with other limits. -/
def within (m : Machine) (steps limit : UInt64) : Machine :=
  { m with stepLimit := steps, tape := m.tape.withLimit limit }

/-- A request stands for a run of the reading stage. -/
lemma prepare_of_request (h : m.request = .ok (i, action)) :
    (Access.prepare m.ip m.relativeBase).run m.tape = (.ok (i, action), m.prepared.tape) :=
  Prod.ext h rfl

/-- Reading leaves the limit as it is. -/
lemma limit_prepared (h : m.request = .ok (i, action)) : m.prepared.tape.limit = m.tape.limit :=
  (Access.lifts_prepare m.ip m.relativeBase (prepare_of_request h)).1

/-- The parameters of an instruction that makes a request are at addresses that are allowed. -/
lemma exists_locate_of_request {k : Nat} (h : m.request = .ok (i, action))
    (hk : k < i.opcode.arity) :
    ∃ place, m.tape.locate (Access.paramAddress m.ip k) = .ok place := by
  obtain ⟨i', fetched, hfetch, hrest⟩ := Access.exists_of_run_bind (prepare_of_request h)
  obtain ⟨action', resolved, hresolve, hpure⟩ := Access.exists_of_run_bind hrest
  cases hpure
  obtain ⟨place, hlocate⟩ := Access.needs_resolve m.ip m.relativeBase i hk hresolve
  exact ⟨place, Tape.locate_congr ((Access.isReading_fetch m.ip).lifts hfetch).1 _ ▸ hlocate⟩

section Request

variable (h : m.request = .ok (i, action)) (hlimit : m.tape.limit ≤ limit)

include h hlimit

/-- A request is made under a greater limit as well. -/
lemma request_within (steps : UInt64) : (m.within steps limit).request = .ok (i, action) :=
  congrArg Prod.fst
    ((Access.lifts_prepare m.ip m.relativeBase (prepare_of_request h)).2 limit hlimit)

/-- The cells that are read are kept under a greater limit as well. -/
lemma prepared_within (steps : UInt64) :
    (m.within steps limit).prepared = m.prepared.within steps limit := by
  have hrun := (Access.lifts_prepare m.ip m.relativeBase (prepare_of_request h)).2 limit hlimit
  have htape : (m.within steps limit).prepared.tape = m.prepared.tape.withLimit limit :=
    congrArg Prod.snd hrun
  exact congrArg (fun tape : Tape => { m with stepLimit := steps, tape := tape }) htape

/-- The parameters of an instruction that makes a request are noted in the same way under a greater
limit. -/
lemma note_within (steps : UInt64) :
    (m.prepared.within steps limit).note i = m.prepared.note i := by
  have hlimit' : m.prepared.tape.limit ≤ limit := (limit_prepared h).symm ▸ hlimit
  have hentry : (m.prepared.within steps limit).traceEntry i = m.prepared.traceEntry i := by
    unfold traceEntry
    congr 1
    refine List.map_congr_left fun k hk => ?_
    obtain ⟨place, hlocate⟩ := exists_locate_of_request h (List.mem_range.1 hk)
    rw [← Tape.locate_congr (limit_prepared h)] at hlocate
    have hpeek : (m.prepared.within steps limit).tape.peek?
        (Word.ofCount ((m.prepared.within steps limit).ip + 1 + UInt64.ofNat k)) =
          m.prepared.tape.peek? (Word.ofCount (m.prepared.ip + 1 + UInt64.ofNat k)) :=
      Tape.peek?_withLimit hlocate hlimit'
    rw [hpeek]
  unfold note
  rw [hentry]
  rfl

end Request

lemma IsReady.within (h : m.IsReady) (hsteps : m.stepLimit ≤ steps) (limit : UInt64) :
    (m.within steps limit).IsReady where
  not_halted := h.not_halted
  not_exhausted hexhausted := h.not_exhausted (UInt64.le_trans hsteps hexhausted)

/-- Putting a value somewhere does the same under other limits, if the instruction is noted in the
same way. -/
lemma putting_within (hnote : (m.within steps limit).note i = m.note i) (place : Nat)
    (value : Word) :
    (m.within steps limit).putting i place value =
      (m.putting i place value).within steps limit := by
  unfold putting
  rw [hnote]
  have hextend := m.tape.extend_withLimit limit place
  exact congrArg (fun tape : Tape =>
    { m.within steps limit with tape := tape.put place value }.complete (m.note i) (m.nextIp i)
      .running) hextend

/-- An instruction is completed in the same way under greater limits. -/
lemma Completes.within (h : Completes port m s status m' s') (hsteps : m.stepLimit ≤ steps)
    (hlimit : m.tape.limit ≤ limit) :
    Completes port (m.within steps limit) s status (m'.within steps limit) s' := by
  cases h with
  | @stores i target value place hready hrequest hreach =>
    have hstores : Completes port (m.within steps limit) s _ _ s :=
      .stores (hready.within hsteps limit) (request_within hrequest hlimit steps)
        (Tape.reach_withLimit hreach hlimit)
    rwa [prepared_within hrequest hlimit,
      putting_within (note_within hrequest hlimit steps)] at hstores
  | @takes i target value rest place hready hrequest hinputs hreach =>
    have htakes : Completes port (m.within steps limit) s _ _ s :=
      .takes (hready.within hsteps limit) (request_within hrequest hlimit steps) hinputs
        (Tape.reach_withLimit hreach hlimit)
    have hnote : ({ m.prepared with inputs := rest }.within steps limit).note i =
        { m.prepared with inputs := rest }.note i := note_within hrequest hlimit steps
    rw [prepared_within hrequest hlimit] at htakes
    rw [← putting_within hnote]
    exact htakes
  | @receives i target value place s' hready hrequest hinputs hreceive hreach =>
    have hreceives : Completes port (m.within steps limit) s _ _ s' :=
      .receives (hready.within hsteps limit) (request_within hrequest hlimit steps) hinputs hreceive
        (Tape.reach_withLimit hreach hlimit)
    rwa [prepared_within hrequest hlimit,
      putting_within (note_within hrequest hlimit steps)] at hreceives
  | @emits i value s' hready hrequest hsend =>
    have hemits : Completes port (m.within steps limit) s _ _ s' :=
      .emits (hready.within hsteps limit) (request_within hrequest hlimit steps) hsend
    rw [prepared_within hrequest hlimit, note_within hrequest hlimit steps] at hemits
    exact hemits
  | @jumps i destination hready hrequest =>
    have hjumps : Completes port (m.within steps limit) s _ _ s :=
      .jumps (hready.within hsteps limit) (request_within hrequest hlimit steps)
    rw [prepared_within hrequest hlimit, note_within hrequest hlimit steps] at hjumps
    exact hjumps
  | @rebases i base hready hrequest =>
    have hrebases : Completes port (m.within steps limit) s _ _ s :=
      .rebases (hready.within hsteps limit) (request_within hrequest hlimit steps)
    rw [prepared_within hrequest hlimit, note_within hrequest hlimit steps] at hrebases
    exact hrebases
  | @halts i hready hrequest =>
    have hhalts : Completes port (m.within steps limit) s _ _ s :=
      .halts (hready.within hsteps limit) (request_within hrequest hlimit steps)
    rw [prepared_within hrequest hlimit, note_within hrequest hlimit steps] at hhalts
    exact hhalts

/-- A machine is suspended in the same way under greater limits. -/
lemma Suspends.within (h : Suspends port m s m' s') (hsteps : m.stepLimit ≤ steps)
    (hlimit : m.tape.limit ≤ limit) :
    Suspends port (m.within steps limit) s (m'.within steps limit) s' := by
  obtain ⟨hready, ⟨i, target, hrequest⟩, hinputs, hreceive, rfl⟩ := h
  refine ⟨hready.within hsteps limit, ⟨i, target, request_within hrequest hlimit steps⟩, hinputs,
    hreceive, ?_⟩
  rw [prepared_within hrequest hlimit]
  rfl

/-- An execution without a fault is the same under greater limits. -/
lemma execute_within (h : m.execute port s = ⟨.ok status, m', s'⟩) (hsteps : m.stepLimit ≤ steps)
    (hlimit : m.tape.limit ≤ limit) :
    (m.within steps limit).execute port s = ⟨.ok status, m'.within steps limit, s'⟩ := by
  rcases completes_of_execute_eq h with hcompletes | ⟨rfl, hsuspends⟩ | hrests
  · exact (hcompletes.within hsteps hlimit).execute_eq
  · exact (hsuspends.within hsteps hlimit).execute_eq
  · obtain ⟨hhalted, rfl, rfl, rfl⟩ := hrests
    exact Rests.execute_eq ⟨hhalted, rfl, rfl, rfl⟩

/-- Putting a value somewhere leaves the limit of the tape as it is. -/
lemma limit_putting (m : Machine) (i : Instruction) (place : Nat) (value : Word) :
    (m.putting i place value).tape.limit = m.tape.limit := by
  change ((m.tape.extend place).put place value).limit = m.tape.limit
  rw [Tape.limit_put, Tape.limit_extend]

/-- An execution without a fault leaves the limit of the tape as it is. -/
lemma limit_of_execute_eq (h : m.execute port s = ⟨.ok status, m', s'⟩) :
    m'.tape.limit = m.tape.limit := by
  rcases completes_of_execute_eq h with hcompletes | ⟨_, hsuspends⟩ | hrests
  · cases hcompletes with
    | stores _ hrequest | takes _ hrequest | receives _ hrequest =>
      have hprepared := limit_prepared hrequest
      rw [limit_putting]
      exact hprepared
    | emits _ hrequest | jumps _ hrequest | rebases _ hrequest | halts _ hrequest =>
      have hprepared := limit_prepared hrequest
      exact hprepared
  · obtain ⟨_, ⟨i, target, hrequest⟩, _, _, rfl⟩ := hsuspends
    have hprepared := limit_prepared hrequest
    exact hprepared
  · rw [hrests.machine]

/-- An execution leaves the step limit as it is. -/
lemma stepLimit_of_execute_eq (h : m.execute port s = ⟨.ok status, m', s'⟩) :
    m'.stepLimit = m.stepLimit := by
  rw [← stepLimit_execute port m s, h]

/-- A run without a fault is the same under greater limits. -/
lemma runWith_within (h : m.runWith port s = ⟨.ok stop, m', s'⟩) (hsteps : m.stepLimit ≤ steps)
    (hlimit : m.tape.limit ≤ limit) :
    (m.within steps limit).runWith port s = ⟨.ok stop, m'.within steps limit, s'⟩ := by
  induction m, s using runWith_induction port with
  | fault m s fault m₁ s₁ hturn hrun =>
    rw [hrun] at h
    cases h
  | stop m s stop m₁ s₁ hturn hrun =>
    rw [hrun] at h
    cases h
    exact runWith_of_stop (execute_within hturn hsteps hlimit)
  | step m s status m₁ s₁ hturn hhalted hneeds hrun ih =>
    rw [runWith_of_step (execute_within hturn hsteps hlimit) hhalted hneeds]
    exact ih (hrun ▸ h) (stepLimit_of_execute_eq hturn ▸ hsteps)
      (limit_of_execute_eq hturn ▸ hlimit)

/-! ## With or without notes -/

/-- The machine with another say on whether it notes what it executes, and with other notes. -/
def noting (m : Machine) (on : Bool) (trace : Array TraceEntry) : Machine :=
  { m with tracing := on, trace := trace }

lemma IsReady.noting (h : m.IsReady) (on : Bool) (trace : Array TraceEntry) :
    (m.noting on trace).IsReady :=
  ⟨h.not_halted, h.not_exhausted⟩

/-- An instruction is completed in the same way whether it is noted or not. -/
lemma Completes.noting (h : Completes port m s status m' s') (on : Bool)
    (trace : Array TraceEntry) :
    ∃ trace', Completes port (m.noting on trace) s status (m'.noting on trace') s' := by
  cases h with
  | stores hready hrequest hreach =>
    exact ⟨_, .stores (hready.noting on trace) hrequest hreach⟩
  | takes hready hrequest hinputs hreach =>
    exact ⟨_, .takes (hready.noting on trace) hrequest hinputs hreach⟩
  | receives hready hrequest hinputs hreceive hreach =>
    exact ⟨_, .receives (hready.noting on trace) hrequest hinputs hreceive hreach⟩
  | emits hready hrequest hsend =>
    exact ⟨_, .emits (hready.noting on trace) hrequest hsend⟩
  | jumps hready hrequest =>
    exact ⟨_, .jumps (hready.noting on trace) hrequest⟩
  | rebases hready hrequest =>
    exact ⟨_, .rebases (hready.noting on trace) hrequest⟩
  | halts hready hrequest =>
    exact ⟨_, .halts (hready.noting on trace) hrequest⟩

/-- An instruction faults in the same way whether it would have been noted or not. -/
lemma Faults.noting (h : Faults port m s fault m' s') (on : Bool) (trace : Array TraceEntry) :
    Faults port (m.noting on trace) s fault (m'.noting on trace) s' := by
  cases h with
  | exhausted hhalted hlimit => exact .exhausted (m := m.noting on trace) hhalted hlimit
  | unreadable hready hrequest =>
    exact .unreadable (hready.noting on trace) hrequest
  | unstored hready hrequest hreach =>
    exact .unstored (hready.noting on trace) hrequest hreach
  | spilled hready hrequest hinputs hreach =>
    exact .spilled (hready.noting on trace) hrequest hinputs hreach
  | dropped hready hrequest hinputs hreceive hreach =>
    exact .dropped (hready.noting on trace) hrequest hinputs hreceive hreach
  | unanswered hready hrequest hinputs hreceive =>
    exact .unanswered (hready.noting on trace) hrequest hinputs hreceive
  | unsent hready hrequest hsend =>
    exact .unsent (hready.noting on trace) hrequest hsend

/-- Executing an instruction makes no other difference whether it is noted or not. -/
lemma exists_execute_noting (port : Port σ) (m : Machine) (s : σ) (on : Bool)
    (trace : Array TraceEntry) :
    ∃ trace', (m.noting on trace).execute port s =
      ⟨(m.execute port s).answer, (m.execute port s).machine.noting on trace',
        (m.execute port s).port⟩ := by
  rcases hexecute : m.execute port s with ⟨fault | status, m', s'⟩
  · exact ⟨trace, ((faults_of_execute_eq hexecute).noting on trace).execute_eq⟩
  · rcases completes_of_execute_eq hexecute with hcompletes | ⟨rfl, hsuspends⟩ | hrests
    · obtain ⟨trace', hnoting⟩ := hcompletes.noting on trace
      exact ⟨trace', hnoting.execute_eq⟩
    · obtain ⟨hready, hrequest, hinputs, hreceive, rfl⟩ := hsuspends
      exact ⟨trace, Suspends.execute_eq
        ⟨hready.noting on trace, hrequest, hinputs, hreceive, rfl⟩⟩
    · obtain ⟨hhalted, rfl, rfl, rfl⟩ := hrests
      exact ⟨trace, Rests.execute_eq ⟨hhalted, rfl, rfl, rfl⟩⟩

/-- A run makes no other difference whether instructions are noted or not. -/
lemma exists_runWith_noting (port : Port σ) (m : Machine) (s : σ) (on : Bool)
    (trace : Array TraceEntry) :
    ∃ trace', (m.noting on trace).runWith port s =
      ⟨(m.runWith port s).answer, (m.runWith port s).machine.noting on trace',
        (m.runWith port s).port⟩ := by
  induction m, s using runWith_induction port generalizing trace with
  | fault m s fault m₁ s₁ hturn hrun =>
    obtain ⟨trace', hnoting⟩ := exists_execute_noting port m s on trace
    rw [hturn] at hnoting
    rw [hrun]
    exact ⟨trace', runWith_of_fault hnoting⟩
  | stop m s stop m₁ s₁ hturn hrun =>
    obtain ⟨trace', hnoting⟩ := exists_execute_noting port m s on trace
    rw [hturn] at hnoting
    rw [hrun]
    exact ⟨trace', runWith_of_stop hnoting⟩
  | step m s status m₁ s₁ hturn hhalted hneeds hrun ih =>
    obtain ⟨trace₁, hnoting⟩ := exists_execute_noting port m s on trace
    obtain ⟨trace', hrest⟩ := ih trace₁
    rw [hturn] at hnoting
    rw [hrun]
    exact ⟨trace', (runWith_of_step hnoting hhalted hneeds).trans hrest⟩

/-! ## Taking a run up again -/

/-- An execution without a fault is the same with more steps. -/
lemma execute_with_steps (h : m.execute port s = ⟨.ok status, m', s'⟩)
    (hsteps : m.stepLimit ≤ steps) :
    { m with stepLimit := steps }.execute port s =
      ⟨.ok status, { m' with stepLimit := steps }, s'⟩ := by
  have hwithin := execute_within h hsteps (UInt64.le_refl m.tape.limit)
  rw [← limit_of_execute_eq h] at hwithin
  have hlimit : { m with stepLimit := steps } = m.within steps m'.tape.limit := by
    rw [limit_of_execute_eq h]
    rfl
  rw [hlimit]
  exact hwithin

lemma fault_ne_stepLimit (refusal : Refusal) (ip bound : UInt64) :
    refusal.fault ip ≠ .stepLimit bound := by
  cases refusal <;> simp [Refusal.fault]

/-- An instruction that has run out of steps does with more of them what it would have done with
more steps before. -/
lemma Faults.resume {b b' : Buffer} {bound : UInt64} (h : Faults Port.buffered m b fault m' b')
    (hfault : fault = .stepLimit bound) (hsteps : m.stepLimit ≤ steps) :
    { m' with stepLimit := steps }.execute Port.buffered b' =
      { m with stepLimit := steps }.execute Port.buffered b := by
  cases h with
  | exhausted hhalted hlimit => rfl
  | unreadable hready hrequest =>
    have hready' := hready.within hsteps m.tape.limit
    exact hready'.execute_prepared Port.buffered b
  | unstored | spilled | dropped => exact absurd hfault (fault_ne_stepLimit _ _ _)
  -- A buffer neither fails to give a value nor refuses one.
  | unanswered hready hrequest hinputs hreceive =>
    rcases b with ⟨_ | ⟨value, rest⟩, outputs⟩
    · cases hreceive
    · cases hreceive
  | unsent hready hrequest hsend => cases hsend

/-- A run that has used up its steps comes with more of them to what it would have come to with more
steps from the beginning. -/
lemma runWith_resume {b b' : Buffer} {bound : UInt64}
    (h : m.runWith Port.buffered b = ⟨.error (.stepLimit bound), m', b'⟩)
    (hsteps : m.stepLimit ≤ steps) :
    { m' with stepLimit := steps }.runWith Port.buffered b' =
      { m with stepLimit := steps }.runWith Port.buffered b := by
  induction m, b using runWith_induction Port.buffered with
  | fault m b fault m₁ b₁ hturn hrun =>
    rw [hrun] at h
    cases h
    rw [runWith_eq, runWith_eq, (faults_of_execute_eq hturn).resume rfl hsteps]
  | stop m b stop m₁ b₁ hturn hrun =>
    rw [hrun] at h
    cases h
  | step m b status m₁ b₁ hturn hhalted hneeds hrun ih =>
    have hfirst := runWith_of_step (execute_with_steps hturn hsteps) hhalted hneeds
    exact (ih (hrun ▸ h) (stepLimit_of_execute_eq hturn ▸ hsteps)).trans hfirst.symm

/-! ## What a run does not depend on -/

/-- Notes change nothing but the notes; a run that stops without a fault does so under greater
limits, in the same way; and a run that has used up its steps can be taken up again with more. -/
theorem runWith_independent (m : Machine) (b : Buffer) :
    (∀ on : Bool, ∃ trace : Array TraceEntry,
        { m with tracing := on }.runWith Port.buffered b =
          ⟨(m.runWith Port.buffered b).answer,
            { (m.runWith Port.buffered b).machine with tracing := on, trace := trace },
            (m.runWith Port.buffered b).port⟩) ∧
      (∀ (stop : Stop) (steps limit : UInt64), (m.runWith Port.buffered b).answer = .ok stop →
        m.stepLimit ≤ steps → m.tape.limit ≤ limit →
          (m.within steps limit).runWith Port.buffered b =
            ⟨.ok stop, (m.runWith Port.buffered b).machine.within steps limit,
              (m.runWith Port.buffered b).port⟩) ∧
      ∀ (bound steps : UInt64), (m.runWith Port.buffered b).answer = .error (.stepLimit bound) →
        m.stepLimit ≤ steps →
          { (m.runWith Port.buffered b).machine with stepLimit := steps }.runWith Port.buffered
              (m.runWith Port.buffered b).port =
            { m with stepLimit := steps }.runWith Port.buffered b := by
  have hrun : m.runWith Port.buffered b = ⟨(m.runWith Port.buffered b).answer,
      (m.runWith Port.buffered b).machine, (m.runWith Port.buffered b).port⟩ := rfl
  refine ⟨fun on => ?_, fun stop steps limit hanswer hsteps hlimit => ?_,
    fun bound steps hanswer hsteps => ?_⟩
  · exact exists_runWith_noting Port.buffered m b on m.trace
  · rw [hanswer] at hrun
    exact runWith_within hrun hsteps hlimit
  · rw [hanswer] at hrun
    exact runWith_resume hrun hsteps

/-- A machine that emits an input value, with a tape that is just long enough, and with as many
steps as it is given. -/
def echoing (steps : UInt64) : Machine :=
  boot ⟨#[3, 5, 4, 5, 99].map Word.ofCount⟩ { stepLimit := steps, memoryLimit := 6 }

/-- With three steps the machine comes to its end, and it does so with more; with two it can be
taken up again. -/
theorem runWith_independent_echoing :
    ((echoing 3).runWith Port.buffered ⟨[1], #[]⟩).answer = .ok .halted ∧
      ((echoing 3).within 9 16).runWith Port.buffered ⟨[1], #[]⟩ =
        ⟨.ok .halted, ((echoing 3).runWith Port.buffered ⟨[1], #[]⟩).machine.within 9 16,
          ((echoing 3).runWith Port.buffered ⟨[1], #[]⟩).port⟩ ∧
      ((echoing 2).runWith Port.buffered ⟨[1], #[]⟩).answer = .error (.stepLimit 2) ∧
      { ((echoing 2).runWith Port.buffered ⟨[1], #[]⟩).machine with stepLimit := 3 }.runWith
          Port.buffered ((echoing 2).runWith Port.buffered ⟨[1], #[]⟩).port =
        { echoing 2 with stepLimit := 3 }.runWith Port.buffered ⟨[1], #[]⟩ := by
  have hhalts : ((echoing 3).runWith Port.buffered ⟨[1], #[]⟩).answer = .ok .halted := by
    cbv
  have hfaults :
      ((echoing 2).runWith Port.buffered ⟨[1], #[]⟩).answer = .error (.stepLimit 2) := by
    cbv
  have hmore := (runWith_independent (echoing 3) ⟨[1], #[]⟩).2.1 .halted 9 16 hhalts (by decide)
    (by decide)
  have hagain := (runWith_independent (echoing 2) ⟨[1], #[]⟩).2.2 2 3 hfaults (by decide)
  exact ⟨hhalts, hmore, hfaults, hagain⟩

end Machine

end Intcode
