import Intcode.Proofs.InputArrival

/-!
# What instructions ask for

An instruction is executed in two stages: what it reads comes to a request, and then the request is
carried out.  A request is made of the decoded word at which the machine stands, and what is asked
for goes with the opcode (`exists_decode_of_request`).

The first stage does nothing but read single words (`isReading_prepare`), so that what holds of one
reading and of one access after another holds of all of it.  Reading has no effect but that the
cells which were read are kept.  Keeping them beforehand makes no difference to what is executed
(`IsReady.execute_prepared`), and brings no other address within reach (`reach_prepared`).
-/

namespace Intcode

namespace Tape

/-- Padding a tape does not bring other addresses within reach. -/
lemma reach_pad (t : Tape) (n : Nat) (address : Word) :
    (t.pad n).reach address = t.reach address := by
  rw [reach_eq, reach_eq, endless_pad]

/-- A word that can be read can be looked at. -/
lemma peek?_of_read {t t' : Tape} {address word : Word}
    (h : t.read address = (.ok word, t')) : t.peek? address = .ok word := by
  unfold read reach at h
  unfold peek?
  cases hlocate : t.locate address with
  | error refusal =>
    simp only [hlocate] at h
    cases h
  | ok place =>
    by_cases hcapacity : capacity ≤ place + 1
    · simp only [hlocate, if_pos hcapacity] at h
      cases h
    · simp only [hlocate, if_neg hcapacity] at h
      cases h
      rw [cell_extend]
      rfl

end Tape

/-! ## Opcodes and actions -/

/-- The opcodes of the instructions that ask for an action. -/
def Action.opcodes : Action → List Opcode
  | store _ _ => [.add, .mul, .lessThan, .equals]
  | receive _ => [.input]
  | emit _ => [.output]
  | jump _ => [.jumpIfTrue, .jumpIfFalse]
  | rebase _ => [.adjustRelativeBase]
  | halt => [.halt]

namespace Access

variable {α β : Type} {P : β → Prop}

/-- Whatever an access answers has a property. -/
def Gives (x : Access β) (P : β → Prop) : Prop :=
  ∀ (t t' : Tape) (b : β), x.run t = (.ok b, t') → P b

lemma gives_pure {b : β} (h : P b) : (pure b : Access β).Gives P := by
  intro t t' b' hrun
  cases hrun
  exact h

lemma gives_throw (fault : Fault) : (throw fault : Access β).Gives P := by
  intro t t' b hrun
  cases hrun

/-- An access that answers has got an answer from its first part. -/
lemma exists_of_run_bind {x : Access α} {f : α → Access β} {t t' : Tape} {b : β}
    (h : (x >>= f).run t = (.ok b, t')) :
    ∃ a t'', x.run t = (.ok a, t'') ∧ (f a).run t'' = (.ok b, t') := by
  rw [run_bind] at h
  rcases hx : x.run t with ⟨fault | a, t''⟩
  · rw [hx] at h
    cases h
  · rw [hx] at h
    exact ⟨a, t'', rfl, h⟩

/-- A fetched instruction is decoded from the word that has been read. -/
lemma exists_read_of_fetch {ip : UInt64} {i : Instruction} {t t' : Tape}
    (h : (fetch ip).run t = (.ok i, t')) :
    ∃ word, t.read (Word.ofCount ip) = (.ok word, t') ∧ Instruction.decode word = .ok i := by
  obtain ⟨word, kept, hread, hdecode⟩ := exists_of_run_bind h
  simp only [read, ExceptT.run] at hread
  rcases hcell : t.read (Word.ofCount ip) with ⟨refusal | value, grown⟩
  · rw [hcell] at hread
    cases hread
  · rw [hcell] at hread
    cases hread
    cases hword : Instruction.decode word with
    | error cause =>
      rw [hword] at hdecode
      cases hdecode
    | ok j =>
      rw [hword] at hdecode
      cases hdecode
      exact ⟨word, rfl, hword⟩

lemma gives_bind (x : Access α) {f : α → Access β} (h : ∀ a, (f a).Gives P) :
    (x >>= f).Gives P := by
  intro t t' b hrun
  obtain ⟨a, t'', _, hf⟩ := exists_of_run_bind hrun
  exact h a t'' t' b hf

variable (ip : UInt64) (base : Word) (i : Instruction)

lemma gives_combine (f : Word → Word → Option Word) :
    (combine ip base i f).Gives fun action => ∃ target value, action = .store target value := by
  unfold combine
  refine gives_bind _ fun a => gives_bind _ fun b => gives_bind _ fun value => ?_
  exact gives_bind _ fun target => gives_pure ⟨target, value, rfl⟩

lemma gives_branch (test : Word → Bool) :
    (branch ip base i test).Gives fun action => ∃ destination, action = .jump destination := by
  unfold branch
  refine gives_bind _ fun condition => gives_bind _ fun destination => ?_
  split
  · split
    · next ip' _ => exact gives_pure ⟨ip', rfl⟩
    · exact gives_throw _
  · exact gives_pure ⟨_, rfl⟩

/-- What an instruction asks for goes with its opcode. -/
lemma gives_resolve : (resolve ip base i).Gives fun action => i.opcode ∈ action.opcodes := by
  have hcombine (f : Word → Word → Option Word) (h : i.opcode ∈ (Action.store 0 0).opcodes) :
      (combine ip base i f).Gives fun action => i.opcode ∈ action.opcodes := by
    intro t t' action hrun
    obtain ⟨target, value, rfl⟩ := gives_combine ip base i f t t' action hrun
    exact h
  have hbranch (test : Word → Bool) (h : i.opcode ∈ (Action.jump 0).opcodes) :
      (branch ip base i test).Gives fun action => i.opcode ∈ action.opcodes := by
    intro t t' action hrun
    obtain ⟨destination, rfl⟩ := gives_branch ip base i test t t' action hrun
    exact h
  unfold resolve
  cases hop : i.opcode with
  | add | mul | lessThan | equals =>
    rw [hop] at hcombine
    exact hcombine _ (by decide)
  | jumpIfTrue | jumpIfFalse =>
    rw [hop] at hbranch
    exact hbranch _ (by decide)
  | input | output =>
    exact gives_bind _ fun value => gives_pure (List.mem_singleton.2 rfl)
  | adjustRelativeBase =>
    refine gives_bind _ fun offset => gives_bind _ fun base => ?_
    exact gives_pure (List.mem_singleton.2 rfl)
  | halt => exact gives_pure (List.mem_singleton.2 rfl)

/-! ## What accesses are made of -/

/-- The access reads single words, one after another, and may end early in a fault. -/
inductive IsReading : {α : Type} → Access α → Prop
  /-- Nothing is left to be read. -/
  | pure {α : Type} (a : α) : IsReading (Pure.pure a : Access α)
  /-- The access ends in a fault. -/
  | throw {α : Type} (fault : Fault) : IsReading (MonadExcept.throw fault : Access α)
  /-- A word is read. -/
  | read (ip : UInt64) (address : Word) : IsReading (Access.read ip address)
  /-- One access is made after another. -/
  | bind {α β : Type} {x : Access α} {f : α → Access β} (hx : IsReading x)
    (hf : ∀ a, IsReading (f a)) : IsReading (x >>= f)

lemma isReading_inRange (result : Option Word) : IsReading (inRange ip result) := by
  cases result with
  | none => exact .throw _
  | some value => exact .pure value

lemma isReading_operand (k : Nat) : IsReading (operand ip base i k) := by
  refine .bind (.read ip _) fun param => ?_
  cases i.mode k with
  | immediate => exact .pure param
  | position => exact .read ip param
  | relative => exact .bind (isReading_inRange ip _) fun address => .read ip address

lemma isReading_target (k : Nat) : IsReading (target ip base i k) := by
  refine .bind (.read ip _) fun param => ?_
  cases i.mode k with
  | immediate => exact .throw _
  | position => exact .pure param
  | relative => exact isReading_inRange ip _

lemma isReading_fetch : IsReading (fetch ip) := by
  refine .bind (.read ip _) fun word => ?_
  cases Instruction.decode word with
  | error cause => exact .throw _
  | ok i => exact .pure i

lemma isReading_combine (f : Word → Word → Option Word) : IsReading (combine ip base i f) := by
  refine .bind (isReading_operand ip base i 0) fun a => ?_
  refine .bind (isReading_operand ip base i 1) fun b => ?_
  refine .bind (isReading_inRange ip _) fun value => ?_
  exact .bind (isReading_target ip base i 2) fun address => .pure _

lemma isReading_branch (test : Word → Bool) : IsReading (branch ip base i test) := by
  refine .bind (isReading_operand ip base i 0) fun condition => ?_
  refine .bind (isReading_operand ip base i 1) fun destination => ?_
  split
  · split
    · exact .pure _
    · exact .throw _
  · exact .pure _

lemma isReading_resolve : IsReading (resolve ip base i) := by
  unfold resolve
  cases i.opcode with
  | add | mul | lessThan | equals => exact isReading_combine ip base i _
  | jumpIfTrue | jumpIfFalse => exact isReading_branch ip base i _
  | input => exact .bind (isReading_target ip base i 0) fun address => .pure _
  | output => exact .bind (isReading_operand ip base i 0) fun value => .pure _
  | adjustRelativeBase =>
    refine .bind (isReading_operand ip base i 0) fun offset => ?_
    exact .bind (isReading_inRange ip _) fun base => .pure _
  | halt => exact .pure _

/-- The first stage of an instruction does nothing but read. -/
lemma isReading_prepare : IsReading (prepare ip base) :=
  .bind (isReading_fetch ip) fun i => .bind (isReading_resolve ip base i) fun _ => .pure _

end Access

namespace Machine

variable {σ : Type} {m : Machine} {i : Instruction} {action : Action}

/-! ## Requests of machines -/

/-- The machine executes an instruction when it is told to: it has not halted, and a step is
left. -/
structure IsReady (m : Machine) : Prop where
  /-- It has not halted. -/
  not_halted : m.status ≠ .halted
  /-- A step is left. -/
  not_exhausted : ¬ m.stepLimit ≤ m.steps

/-- A machine that executes first keeps the cells that it reads. -/
lemma IsReady.execute_eq (h : m.IsReady) (port : Port σ) (s : σ) :
    m.execute port s =
      match m.request with
      | .error fault => ⟨.error fault, m.prepared, s⟩
      | .ok (i, action) => m.prepared.perform port i action s := by
  unfold execute request prepared
  rw [if_neg h.not_halted, if_neg h.not_exhausted]
  rcases (Access.prepare m.ip m.relativeBase).run m.tape with ⟨fault | ⟨i, action⟩, tape⟩
  · rfl
  · rfl

/-- A machine that executes nothing stays as it is. -/
lemma execute_of_not_ready (h : ¬ m.IsReady) (port : Port σ) (s : σ) :
    m.execute port s =
      ⟨if m.status = .halted then .ok .halted else .error (.stepLimit m.stepLimit), m, s⟩ := by
  unfold execute
  by_cases hhalted : m.status = .halted
  · rw [if_pos hhalted, if_pos hhalted]
  · have hlimit : m.stepLimit ≤ m.steps := by
      by_contra hleft
      exact h ⟨hhalted, hleft⟩
    rw [if_neg hhalted, if_pos hlimit, if_neg hhalted]

/-- Keeping the cells beforehand that an instruction reads makes no difference to it. -/
lemma IsReady.execute_prepared (h : m.IsReady) (port : Port σ) (s : σ) :
    m.prepared.execute port s = m.execute port s := by
  have hprepared : m.prepared.IsReady := ⟨h.not_halted, h.not_exhausted⟩
  rw [hprepared.execute_eq, h.execute_eq, request_prepared, prepared_prepared]

/-- Keeping the cells that are read does not bring other addresses within reach. -/
lemma reach_prepared (m : Machine) (address : Word) :
    m.prepared.tape.reach address = m.tape.reach address := by
  obtain ⟨r, ⟨n, hrun⟩, _⟩ := Access.yields_prepare m.endless
  have htape : m.prepared.tape = m.tape.pad n := congrArg Prod.snd (hrun m.tape rfl)
  rw [htape, Tape.reach_pad]

/-- The word at which a machine stands is the instruction that asks, and the request goes with its
opcode. -/
lemma exists_decode_of_request (h : m.request = .ok (i, action)) :
    (∃ word, m.peek? (Word.ofCount m.ip) = .ok word ∧ Instruction.decode word = .ok i) ∧
      i.opcode ∈ action.opcodes := by
  rcases hrun : (Access.prepare m.ip m.relativeBase).run m.tape with ⟨answer, tape⟩
  have hanswer : answer = .ok (i, action) := by
    rw [← h]
    exact (congrArg Prod.fst hrun).symm
  rw [hanswer] at hrun
  obtain ⟨i', fetched, hfetch, hrest⟩ := Access.exists_of_run_bind hrun
  obtain ⟨action', resolved, hresolve, hpure⟩ := Access.exists_of_run_bind hrest
  cases hpure
  refine ⟨?_, Access.gives_resolve m.ip m.relativeBase i _ _ _ hresolve⟩
  obtain ⟨word, hread, hdecode⟩ := Access.exists_read_of_fetch hfetch
  refine ⟨word, ?_, hdecode⟩
  unfold peek?
  rw [Tape.peek?_of_read hread]
  rfl

end Machine

end Intcode
