import Intcode.Proofs.CheckedExecution
import Intcode.Proofs.FaultFrame

/-!
# Numbers and indices that always fit

An instruction meets no hazard, whatever the machine is like: executing it in exact numbers comes to
the same as executing it (`Machine.executes_without_hazard`).

Everything rests on the fetched instruction.  A word that has been read stands in a cell, and a
tape has so few cells that whatever an instruction adds to the instruction pointer fits
(`lt_capacity_of_fetch`).  A decoded instruction does not write to a value, and it has no more
parameters than there are modes.  What is read then agrees step by step (`Agrees`), and there is
room to count one more step, because the step limit itself is a number that fits.
-/

namespace Intcode

namespace Checked

/-- What meets no hazard goes on with its result. -/
lemma ok_bind {ε α β : Type} (a : α) (f : α → Except ε β) : (Except.ok a >>= f) = f a := rfl

/-- In the midst of decoding or reading, too, what meets no hazard answers and does nothing else. -/
lemma lift_ok_bind {n : Type → Type} [Monad n] [LawfulMonad n] [MonadLiftT (Except Hazard) n]
    [LawfulMonadLiftT (Except Hazard) n] {α β : Type} (a : α) (f : α → n β) :
    (liftM (Except.ok a : Except Hazard α) >>= f) = f a := by
  have hlift : (liftM (Except.ok a : Except Hazard α) : n α) = pure a :=
    LawfulMonadLiftT.monadLift_pure a
  rw [hlift, pure_bind]

/-! ## Numbers -/

lemma count_of_lt {n : Nat} (h : n < 18446744073709551616) :
    count n = .ok (UInt64.ofNat n) := by
  unfold count UInt64.size
  rw [if_pos h]

/-- A sum that fits is what the addition that wraps around comes to. -/
lemma count_add {a : UInt64} {n : Nat} (h : a.toNat + n < 18446744073709551616) :
    count (a.toNat + n) = .ok (a + UInt64.ofNat n) := by
  rw [count_of_lt h, UInt64.ofNat_add, UInt64.ofNat_toNat]

lemma word_of_toInt {n : Int} {w : Word} (h : w.toInt = n) : word n = .ok w := by
  unfold word
  rw [Word.ofInt?_eq_some_iff.2 h]

/-- An unsigned number that is not too great for a word is the word with its bits. -/
lemma word_toNat {u : UInt64} (h : u.toNat < 9223372036854775808) :
    word u.toNat = .ok (Word.ofCount u) :=
  word_of_toInt (Word.toInt_ofCount_of_lt h)

lemma exists_word {n : Int} (h : n.natAbs ≤ 9223372036854775807) :
    ∃ w : Word, word n = .ok w ∧ w.toInt = n :=
  ⟨⟨n, by omega, by omega⟩, word_of_toInt rfl, rfl⟩

/-- A word can be divided by anything from two on. -/
lemma exists_divide (w : Word) {d : Int} (hd : 2 ≤ d) (hmax : d ≤ 9223372036854775807) :
    ∃ quotient remainder, divide w d = .ok (quotient, remainder) ∧
      quotient.toInt = w.toInt.tdiv d ∧ remainder.toInt = w.toInt.tmod d := by
  have hmin := w.min_le
  have hle := w.le_max
  have hquotient : (w.toInt.tdiv d).natAbs ≤ 9223372036854775807 := by
    have hhalf : w.toInt.natAbs / d.natAbs ≤ w.toInt.natAbs / 2 :=
      Nat.div_le_div_left (by omega) (by omega)
    rw [Int.natAbs_tdiv]
    change w.toInt.natAbs / d.natAbs ≤ _
    omega
  have hremainder : (w.toInt.tmod d).natAbs ≤ 9223372036854775807 := by
    have hlt : w.toInt.natAbs % d.natAbs < d.natAbs := Nat.mod_lt _ (by omega)
    rw [Int.natAbs_tmod]
    omega
  obtain ⟨quotient, hq, hqval⟩ := exists_word hquotient
  obtain ⟨remainder, hr, hrval⟩ := exists_word hremainder
  refine ⟨quotient, remainder, ?_, hqval, hrval⟩
  unfold divide
  rw [hq, hr]
  rfl

/-! ## Decoding -/

/-- There are modes for three parameters. -/
lemma mode_eq (i : Instruction) {k : Nat} (hk : k < 3) : mode i k = .ok (i.mode k) := by
  obtain rfl | rfl | rfl : k = 0 ∨ k = 1 ∨ k = 2 := by omega
  all_goals rfl

lemma arity_le_three (o : Opcode) : o.arity ≤ 3 := by cases o <;> decide

lemma lt_arity_of_writeParam? {o : Opcode} {k : Nat} (h : o.writeParam? = some k) :
    k < o.arity := by
  cases o <;> cases h <;> decide

/-- A parameter gets the mode that the digits above it have left for it, and what is left of them
is what the next parameter gets to see, if there is one. -/
lemma exists_run_slot (opcode : Opcode) (k : Nat) (digits : Word) :
    ∃ rest : Word, (k < opcode.arity → rest.toInt = digits.toInt.tdiv 10) ∧
      (slot opcode k digits).run =
        .ok ((Instruction.slot opcode k digits.toInt).map fun mode => (mode, rest)) := by
  unfold slot Instruction.slot
  by_cases hk : k < opcode.arity
  · obtain ⟨rest, digit, hdivide, hrest, hdigit⟩ :=
      exists_divide digits (d := 10) (by decide) (by decide)
    refine ⟨rest, fun _ => hrest, ?_⟩
    rw [if_pos hk, if_pos hk, hdivide, lift_ok_bind, ← hdigit]
    dsimp only
    cases Mode.ofDigit? digit.toInt <;> rfl
  · refine ⟨digits, fun h => absurd h hk, ?_⟩
    rw [if_neg hk, if_neg hk]
    rfl

/-- A parameter that the opcode does not have gets no digit to see. -/
lemma slot_congr {opcode : Opcode} {k : Nat} {digits digits' : Int}
    (h : k < opcode.arity → digits = digits') :
    Instruction.slot opcode k digits = Instruction.slot opcode k digits' := by
  by_cases hk : k < opcode.arity
  · rw [h hk]
  · unfold Instruction.slot
    rw [if_neg hk, if_neg hk]

lemma run_checkTarget (i : Instruction) :
    (checkTarget i).run = .ok (Instruction.checkTarget i) := by
  unfold checkTarget Instruction.checkTarget
  cases hparam : i.opcode.writeParam? with
  | none => rfl
  | some k =>
    have hk : k < 3 :=
      Nat.lt_of_lt_of_le (lt_arity_of_writeParam? hparam) (arity_le_three i.opcode)
    dsimp only
    rw [mode_eq i hk, lift_ok_bind]
    by_cases himmediate : i.mode k = .immediate
    · rw [if_pos himmediate, if_pos himmediate]
      rfl
    · rw [if_neg himmediate, if_neg himmediate]
      rfl

/-- Decoding meets no hazard. -/
lemma run_decode (w : Word) : (decode w).run = .ok (Instruction.decode w) := by
  obtain ⟨digits, code, hdivide, hdigits, hcode⟩ :=
    exists_divide w (d := 100) (by decide) (by decide)
  unfold decode Instruction.decode Instruction.decodeOpcode
  rw [hdivide, lift_ok_bind, ← hcode, ← hdigits]
  dsimp only
  cases Opcode.ofCode? code.toInt with
  | none => rfl
  | some opcode =>
    obtain ⟨rest, hrest, hfirst⟩ := exists_run_slot opcode 0 digits
    obtain ⟨rest', hrest', hsecond⟩ := exists_run_slot opcode 1 rest
    obtain ⟨_, _, hthird⟩ := exists_run_slot opcode 2 rest'
    have hones : 1 < opcode.arity → rest.toInt = digits.toInt.tdiv 10 := by
      intro harity
      exact hrest (Nat.zero_lt_of_lt harity)
    have htens : 2 < opcode.arity → rest'.toInt = (digits.toInt.tdiv 10).tdiv 10 := by
      intro harity
      have hlt : 1 < opcode.arity := Nat.lt_of_succ_lt harity
      rw [hrest' hlt, hones hlt]
    rw [slot_congr hones] at hsecond
    rw [slot_congr htens] at hthird
    dsimp only
    rw [ok_bind, ExceptT.run_bind, hfirst, ok_bind]
    cases Instruction.slot opcode 0 digits.toInt with
    | error cause => rfl
    | ok first =>
      dsimp only [Except.map]
      rw [ok_bind, ExceptT.run_bind, hsecond, ok_bind]
      cases Instruction.slot opcode 1 (digits.toInt.tdiv 10) with
      | error cause => rfl
      | ok second =>
        dsimp only [Except.map]
        rw [ok_bind, ExceptT.run_bind, hthird, ok_bind]
        cases Instruction.slot opcode 2 ((digits.toInt.tdiv 10).tdiv 10) with
        | error cause => rfl
        | ok third => exact run_checkTarget ⟨opcode, first, second, third⟩

/-! ## The tape -/

/-- A kept cell is found at its index. -/
lemma getElem?_cells {t : Tape} {place : Nat} (h : place < t.cells.size) :
    t.cells[place]? = some (t.cell place) := by
  unfold Tape.cell
  rw [Array.getD_eq_getD_getElem?, Array.getElem?_eq_getElem h, Option.getD_some]

/-- An address within reach has a cell after the tape has grown for it. -/
lemma keep_of_reach_ok {t : Tape} {address : Word} {place : Nat}
    (h : t.reach address = .ok place) :
    keep t address = .ok (.ok place, t.extend place) ∧ place < (t.extend place).cells.size := by
  have hcapacity := (Tape.reach_eq_ok_iff.1 h).2
  have hroom : place + 1 < 18446744073709551616 := Nat.lt_trans hcapacity (by decide)
  refine ⟨?_, ?_⟩
  · unfold keep
    rw [h]
    dsimp only
    rw [count_of_lt hroom, ok_bind]
    rfl
  · change place < (t.extend place).size
    rw [Tape.size_extend]
    omega

lemma keep_of_reach_error {t : Tape} {address : Word} {refusal : Refusal}
    (h : t.reach address = .error refusal) : keep t address = .ok (.error refusal, t) := by
  unfold keep
  rw [h]
  rfl

lemma readCell_eq (t : Tape) (address : Word) : readCell t address = .ok (t.read address) := by
  unfold readCell Tape.read
  cases hreach : t.reach address with
  | error refusal =>
    rw [keep_of_reach_error hreach]
    rfl
  | ok place =>
    obtain ⟨hkeep, hkept⟩ := keep_of_reach_ok hreach
    rw [hkeep, ok_bind]
    dsimp only
    rw [getElem?_cells hkept]
    rfl

lemma writeCell_eq (t : Tape) (address value : Word) :
    writeCell t address value = .ok (t.write address value) := by
  unfold writeCell Tape.write
  cases hreach : t.reach address with
  | error refusal =>
    rw [keep_of_reach_error hreach]
    rfl
  | ok place =>
    obtain ⟨hkeep, hkept⟩ := keep_of_reach_ok hreach
    rw [hkeep, ok_bind]
    dsimp only
    rw [if_pos hkept]
    rfl

/-! ## Reading -/

section

variable {α β : Type} (ip : UInt64) (base : Word) (i : Instruction)

/-- The first computation meets no hazard and comes to what the second one comes to. -/
def Agrees (g : Reading α) (x : Access α) : Prop :=
  ∀ t : Tape, g.run t = .ok (x.run t)

lemma agrees_pure (a : α) : Agrees (pure a) (pure a) := fun _ => rfl

lemma agrees_throw (fault : Fault) : Agrees (throw fault : Reading α) (throw fault) := fun _ => rfl

/-- Computations that agree one after another agree as a whole. -/
lemma Agrees.bind {g : Reading α} {x : Access α} {f' : α → Reading β} {f : α → Access β}
    (h : Agrees g x) (hf : ∀ a, Agrees (f' a) (f a)) : Agrees (g >>= f') (x >>= f) := by
  intro t
  have hfirst : StateT.run g.run t = .ok (x.run t) := h t
  change StateT.run (g >>= f').run t = _
  rw [ExceptT.run_bind, StateT.run_bind, hfirst, ok_bind, Access.run_bind]
  rcases x.run t with ⟨fault | a, t'⟩
  · rfl
  · exact hf a t'

lemma agrees_read (address : Word) : Agrees (read ip address) (Access.read ip address) := by
  intro t
  unfold read Access.read
  simp only [ExceptT.run, readCell_eq, ok_bind]
  rcases t.read address with ⟨refusal | value, t'⟩
  · rfl
  · rfl

/-- A result that is no word is an overflow, whether or not it is formed exactly. -/
lemma agrees_inRange (n : Int) :
    Agrees (inRange ip n) (Access.inRange ip (Word.ofInt? n)) := by
  unfold inRange Access.inRange
  cases Word.ofInt? n with
  | none => exact agrees_throw _
  | some w => exact agrees_pure w

variable {ip base i} {k : Nat}

lemma toNat_succ (hip : ip.toNat + 1 < Tape.capacity) : (ip + 1).toNat = ip.toNat + 1 := by
  unfold Tape.capacity at hip
  rw [UInt64.toNat_add, UInt64.toNat_one]
  omega

/-- Behind a cell that is kept there is room for three parameters. -/
lemma toNat_place (hip : ip.toNat + 1 < Tape.capacity) (hk : k < 3) :
    (ip + 1 + UInt64.ofNat k).toNat = ip.toNat + 1 + k := by
  have hone := toNat_succ hip
  unfold Tape.capacity at hip
  rw [UInt64.toNat_add, hone, UInt64.toNat_ofNat_of_lt' (Nat.lt_trans hk (by decide))]
  omega

lemma parameterAddress_eq (hip : ip.toNat + 1 < Tape.capacity) (hk : k < 3) :
    parameterAddress ip k = .ok (Word.ofCount (ip + 1 + UInt64.ofNat k)) := by
  have hone := toNat_succ hip
  have hplace := toNat_place hip hk
  unfold Tape.capacity at hip
  have hnext : count (ip.toNat + 1) = .ok (ip + 1) :=
    count_add (n := 1) (Nat.lt_trans hip (by decide))
  unfold parameterAddress
  rw [hnext, ok_bind, count_add (by omega), ok_bind, word_toNat (by omega)]

-- Where nothing could have been fetched the address is not always a word.
example : parameterAddress 9223372036854775807 0 = .error (.word 9223372036854775808) := by rfl

lemma agrees_parameter (hip : ip.toNat + 1 < Tape.capacity) (hk : k < 3) :
    Agrees (parameter ip k) (Access.parameter ip k) := by
  unfold parameter Access.parameter
  rw [parameterAddress_eq hip hk, lift_ok_bind]
  exact agrees_read ip _

lemma agrees_operand (hip : ip.toNat + 1 < Tape.capacity) (hk : k < 3) :
    Agrees (operand ip base i k) (Access.operand ip base i k) := by
  refine Agrees.bind (agrees_parameter hip hk) ?_
  intro param
  rw [mode_eq i hk, lift_ok_bind]
  cases i.mode k with
  | immediate => exact agrees_pure param
  | position => exact agrees_read ip param
  | relative => exact (agrees_inRange ip _).bind fun address => agrees_read ip address

/-- A parameter in another mode than that of a value names a place to write to. -/
lemma agrees_target (hip : ip.toNat + 1 < Tape.capacity) (hk : k < 3)
    (hmode : i.mode k ≠ .immediate) :
    Agrees (target ip base i k) (Access.target ip base i k) := by
  refine Agrees.bind (agrees_parameter hip hk) ?_
  intro param
  rw [mode_eq i hk, lift_ok_bind]
  cases hmode' : i.mode k with
  | immediate => exact absurd hmode' hmode
  | position => exact agrees_pure param
  | relative => exact agrees_inRange ip _

/-- The instruction pointer is refused as soon as it is negative as a word. -/
lemma run_fetch_of_negative (hip : 9223372036854775808 ≤ ip.toNat) (t : Tape) :
    (Access.fetch ip).run t = (.error (.negativeAddress (Word.ofCount ip) ip), t) := by
  have hreach : t.reach (Word.ofCount ip) = .error (.negative (Word.ofCount ip)) := by
    unfold Tape.reach Tape.locate
    rw [if_pos (Word.toInt_ofCount_neg hip)]
  have hread : (Access.read ip (Word.ofCount ip)).run t =
      (.error (.negativeAddress (Word.ofCount ip) ip), t) := by
    simp only [Access.read, ExceptT.run, Tape.read, hreach]
    rfl
  unfold Access.fetch
  rw [Access.run_bind, hread]

lemma agrees_fetch (ip : UInt64) : Agrees (fetch ip) (Access.fetch ip) := by
  unfold fetch
  by_cases hip : 9223372036854775808 ≤ ip.toNat
  · rw [if_pos hip]
    intro t
    rw [run_fetch_of_negative hip]
    rfl
  · rw [if_neg hip, word_toNat (Nat.lt_of_not_le hip), lift_ok_bind]
    refine Agrees.bind (agrees_read ip _) ?_
    intro w
    rw [run_decode, lift_ok_bind]
    cases Instruction.decode w with
    | error cause => exact agrees_throw _
    | ok i => exact agrees_pure i

/-- An instruction that has been fetched stands in a cell, far below the greatest number. -/
lemma lt_capacity_of_fetch {t t' : Tape} (h : (Access.fetch ip).run t = (.ok i, t')) :
    ip.toNat + 1 < Tape.capacity := by
  obtain ⟨w, hread, _⟩ := Access.exists_read_of_fetch h
  unfold Tape.read at hread
  cases hreach : t.reach (Word.ofCount ip) with
  | error refusal =>
    rw [hreach] at hread
    cases hread
  | ok place =>
    obtain ⟨hlocate, hcapacity⟩ := Tape.reach_eq_ok_iff.1 hreach
    obtain ⟨hnonneg, _, hplace⟩ := Tape.locate_eq_ok_iff.1 hlocate
    have hip : ip.toNat < 9223372036854775808 := by
      by_contra hge
      have hneg := Word.toInt_ofCount_neg (Nat.le_of_not_lt hge)
      omega
    rw [Word.toInt_ofCount_of_lt hip] at hplace
    omega

lemma agrees_combine (hip : ip.toNat + 1 < Tape.capacity) (hmode : i.mode 2 ≠ .immediate)
    {f : Int → Int → Int} {f' : Word → Word → Option Word}
    (hf : ∀ a b : Word, Word.ofInt? (f a.toInt b.toInt) = f' a b) :
    Agrees (combine ip base i f) (Access.combine ip base i f') := by
  refine Agrees.bind (agrees_operand hip (by decide)) ?_
  intro a
  refine Agrees.bind (agrees_operand hip (by decide)) ?_
  intro b
  rw [← hf a b]
  refine Agrees.bind (agrees_inRange ip _) ?_
  intro value
  exact (agrees_target hip (by decide) hmode).bind fun address => agrees_pure _

lemma width_le_four (i : Instruction) : i.width ≤ 4 := by
  have harity := arity_le_three i.opcode
  unfold Instruction.width Opcode.width
  omega

/-- The address behind an instruction fits. -/
lemma count_next (hip : ip.toNat + 1 < Tape.capacity) (i : Instruction) :
    count (ip.toNat + i.width) = .ok (ip + UInt64.ofNat i.width) := by
  have hwidth := width_le_four i
  unfold Tape.capacity at hip
  exact count_add (by omega)

lemma agrees_branch (hip : ip.toNat + 1 < Tape.capacity) (test : Word → Bool) :
    Agrees (branch ip base i test) (Access.branch ip base i test) := by
  refine Agrees.bind (agrees_operand hip (by decide)) ?_
  intro condition
  refine Agrees.bind (agrees_operand hip (by decide)) ?_
  intro destination
  by_cases htest : test condition = true
  · rw [if_pos htest, if_pos htest]
    unfold Word.toCount?
    by_cases hneg : destination.toInt < 0
    · rw [if_pos hneg, if_pos hneg]
      exact agrees_throw _
    · have hmax := destination.le_max
      rw [if_neg hneg, if_neg hneg, count_of_lt (by omega), lift_ok_bind]
      exact agrees_pure _
  · rw [if_neg htest, if_neg htest, count_next hip, lift_ok_bind]
    exact agrees_pure _

lemma ofInt?_ite (p : Prop) [Decidable p] :
    Word.ofInt? (if p then 1 else 0) = some (Word.ofBool (decide p)) := by
  by_cases hp : p
  · rw [if_pos hp, decide_eq_true hp]
    rfl
  · rw [if_neg hp, decide_eq_false hp]
    rfl

lemma agrees_resolve (hip : ip.toNat + 1 < Tape.capacity)
    (hmode : ∀ k, i.opcode.writeParam? = some k → i.mode k ≠ .immediate) :
    Agrees (resolve ip base i) (Access.resolve ip base i) := by
  unfold resolve Access.resolve
  cases hop : i.opcode with
  | add => exact agrees_combine hip (hmode 2 (by rw [hop]; rfl)) fun a b => rfl
  | mul => exact agrees_combine hip (hmode 2 (by rw [hop]; rfl)) fun a b => rfl
  | lessThan => exact agrees_combine hip (hmode 2 (by rw [hop]; rfl)) fun a b => ofInt?_ite _
  | equals => exact agrees_combine hip (hmode 2 (by rw [hop]; rfl)) fun a b => ofInt?_ite _
  | input =>
    exact (agrees_target hip (by decide) (hmode 0 (by rw [hop]; rfl))).bind fun address =>
      agrees_pure _
  | output => exact (agrees_operand hip (by decide)).bind fun value => agrees_pure _
  | jumpIfTrue => exact agrees_branch hip _
  | jumpIfFalse => exact agrees_branch hip _
  | adjustRelativeBase =>
    refine Agrees.bind (agrees_operand hip (by decide)) ?_
    intro offset
    exact (agrees_inRange ip _).bind fun base => agrees_pure _
  | halt => exact agrees_pure _

end

/-! ## The trace -/

section

variable {m : Machine} {i : Instruction}

lemma mapM_eq_ok {α β : Type} {l : List α} {f : α → Except Hazard β} {g : α → β}
    (h : ∀ a ∈ l, f a = .ok (g a)) : l.mapM f = .ok (l.map g) := by
  induction l with
  | nil => rfl
  | cons a l ih =>
    rw [List.mapM_cons, h a List.mem_cons_self, ok_bind,
      ih fun b hb => h b (List.mem_cons_of_mem a hb), ok_bind]
    rfl

lemma traceEntry_eq (hip : m.ip.toNat + 1 < Tape.capacity) (i : Instruction) :
    traceEntry m i = .ok (m.traceEntry i) := by
  unfold traceEntry Machine.traceEntry
  rw [mapM_eq_ok, ok_bind]
  · rfl
  · intro k hk
    have hthree : k < 3 := Nat.lt_of_lt_of_le (List.mem_range.1 hk) (arity_le_three i.opcode)
    rw [parameterAddress_eq hip hthree, ok_bind, mode_eq i hthree, ok_bind]
    cases m.tape.peek? (Word.ofCount (m.ip + 1 + UInt64.ofNat k)) <;> rfl

lemma note_eq (hip : m.ip.toNat + 1 < Tape.capacity) (i : Instruction) :
    note m i = .ok (m.note i) := by
  unfold note Machine.note
  by_cases htracing : m.tracing
  · rw [if_pos htracing, if_pos htracing, traceEntry_eq hip]
    rfl
  · rw [if_neg htracing, if_neg htracing]
    rfl

/-- An entry does not show how far the tape has grown. -/
lemma note_of_grown {t t' : Tape} (h : t.Grown t') (m : Machine) (i : Instruction) :
    { m with tape := t }.note i = { m with tape := t' }.note i := by
  unfold Machine.note Machine.traceEntry
  simp only [h.peek?_eq]

/-! ## Carrying out an instruction -/

variable {σ : Type} {port : Port σ}

/-- The machine can be counted on by one, and its instruction pointer can be moved on behind an
instruction that has been fetched. -/
structure HasRoom (m : Machine) : Prop where
  /-- One more instruction can be counted. -/
  steps : m.steps.toNat + 1 < 18446744073709551616
  /-- The instruction pointer is far below the greatest number. -/
  ip : m.ip.toNat + 1 < Tape.capacity

lemma hasRoom_of_isReady (h : m.IsReady) (hip : m.ip.toNat + 1 < Tape.capacity) : HasRoom m := by
  have hsucc := h.toNat_succ_steps
  have hlt := (m.steps + 1).toNat_lt
  exact ⟨by omega, hip⟩

lemma complete_eq (h : HasRoom m) (entry : Option TraceEntry) (ip : UInt64) (status : Status) :
    complete entry ip status m = .ok (m.complete entry ip status) := by
  have hcount : count (m.steps.toNat + 1) = .ok (m.steps + 1) := count_add (n := 1) h.steps
  unfold complete
  rw [hcount]
  rfl

lemma proceed_eq (h : HasRoom m) (entry : Option TraceEntry) (i : Instruction) (status : Status) :
    proceed entry i status m = .ok (m.complete entry (m.ip + UInt64.ofNat i.width) status) := by
  unfold proceed
  rw [count_next h.ip, ok_bind, complete_eq h]

lemma storing_eq (h : HasRoom m) (entry : Option TraceEntry) (i : Instruction)
    (target value : Word) (s : σ) :
    storing entry i target value m s =
      .ok (m.storing entry (m.ip + UInt64.ofNat i.width) target value s) := by
  unfold storing Machine.storing
  rw [writeCell_eq, ok_bind]
  rcases m.tape.write target value with ⟨refusal | _, tape⟩
  · rfl
  · have hroom : HasRoom { m with tape := tape } := ⟨h.steps, h.ip⟩
    dsimp only
    rw [proceed_eq hroom]
    rfl

lemma perform_eq (h : HasRoom m) (i : Instruction) (action : Action) (s : σ) :
    perform port (m.note i) i action m s = .ok (m.perform port i action s) := by
  unfold perform Machine.perform
  cases action with
  | store target value => exact storing_eq h _ i target value s
  | receive target =>
    cases hinputs : m.inputs with
    | cons value rest =>
      have hroom : HasRoom { m with inputs := rest } := ⟨h.steps, h.ip⟩
      exact storing_eq hroom _ i target value s
    | nil =>
      dsimp only
      rcases port.receive s with ⟨fault | value, s'⟩
      · rfl
      · cases value with
        | none => rfl
        | some value => exact storing_eq h _ i target value s'
  | emit value =>
    have hroom : HasRoom { m with lastOutput := some value } := ⟨h.steps, h.ip⟩
    dsimp only
    rcases port.send value s with ⟨fault | _, s'⟩
    · rfl
    · dsimp only
      rw [proceed_eq hroom]
      rfl
  | jump destination =>
    dsimp only
    rw [complete_eq h]
    rfl
  | rebase base =>
    have hroom : HasRoom { m with relativeBase := base } := ⟨h.steps, h.ip⟩
    dsimp only
    rw [proceed_eq hroom]
    rfl
  | halt =>
    dsimp only
    rw [complete_eq h]
    rfl

/-- Executing an instruction meets no hazard. -/
lemma execute_eq_ok (port : Port σ) (m : Machine) (s : σ) :
    execute port m s = .ok (m.execute port s) := by
  unfold execute Machine.execute
  by_cases hhalted : m.status = .halted
  · rw [if_pos hhalted, if_pos hhalted]
    rfl
  by_cases hlimit : m.stepLimit ≤ m.steps
  · rw [if_neg hhalted, if_pos hlimit, if_neg hhalted, if_pos hlimit]
    rfl
  rw [if_neg hhalted, if_neg hlimit, if_neg hhalted, if_neg hlimit, agrees_fetch m.ip m.tape,
    ok_bind]
  unfold Access.prepare
  rw [Access.run_bind]
  rcases hfetch : (Access.fetch m.ip).run m.tape with ⟨fault | i, fetched⟩
  · rfl
  · have hip := lt_capacity_of_fetch hfetch
    obtain ⟨w, _, hdecode⟩ := Access.exists_read_of_fetch hfetch
    have hresolves : Agrees (resolve m.ip m.relativeBase i)
        (Access.resolve m.ip m.relativeBase i) :=
      agrees_resolve hip (Access.mode_ne_immediate_of_decode hdecode)
    have hgrown := (Access.isReading_resolve m.ip m.relativeBase i).grown fetched
    dsimp only
    rw [note_eq (m := { m with tape := fetched }) hip, ok_bind, hresolves fetched, ok_bind,
      Access.run_bind]
    rcases hresolve : (Access.resolve m.ip m.relativeBase i).run fetched with ⟨fault | action, tape⟩
    · rfl
    · rw [hresolve] at hgrown
      rw [note_of_grown hgrown]
      exact perform_eq (hasRoom_of_isReady (m := { m with tape := tape }) ⟨hhalted, hlimit⟩ hip) i
        action s

end

end Checked

namespace Machine

variable {σ : Type}

/-- An instruction pointer that is negative as a word is refused at once. -/
lemma IsReady.execute_of_negative {m : Machine} (h : m.IsReady)
    (hip : 9223372036854775808 ≤ m.ip.toNat) (port : Port σ) (s : σ) :
    m.execute port s = ⟨.error (.negativeAddress (Word.ofCount m.ip) m.ip), m, s⟩ := by
  unfold execute Access.prepare
  rw [if_neg h.not_halted, if_neg h.not_exhausted, Access.run_bind,
    Checked.run_fetch_of_negative hip]

/-- Executing an instruction meets no hazard: with every number exact and every index checked it
comes to the same, for the machine as well as for the port.  An instruction pointer that is negative
as a word is refused before anything is added to it, and a step is counted only as long as the count
stays within the limit. -/
theorem executes_without_hazard (port : Port σ) (m : Machine) (s : σ) :
    Checked.execute port m s = .ok (m.execute port s) ∧
      (m.IsReady → 9223372036854775808 ≤ m.ip.toNat →
        m.execute port s = ⟨.error (.negativeAddress (Word.ofCount m.ip) m.ip), m, s⟩) ∧
        ((m.execute port s).machine.steps = m.steps ∨
          (m.execute port s).machine.steps.toNat = m.steps.toNat + 1 ∧
            m.steps.toNat + 1 ≤ m.stepLimit.toNat) := by
  refine ⟨Checked.execute_eq_ok port m s, fun hready hip => hready.execute_of_negative hip port s,
    ?_⟩
  rcases steps_execute port m s with hsame | ⟨hready, hnext⟩
  · exact Or.inl hsame
  · have hlimit : ¬ m.stepLimit.toNat ≤ m.steps.toNat := fun hle =>
      hready.not_exhausted (UInt64.le_iff_toNat_le.2 hle)
    exact Or.inr ⟨hnext, by omega⟩

/-- A machine whose instruction pointer, behind which nothing could be read without wrapping around,
has the highest bit alone, and which has one step left before its count would do so. -/
def astray : Machine :=
  { boot ⟨#[]⟩ {} with
    ip := 9223372036854775808, steps := 18446744073709551614, stepLimit := 18446744073709551615 }

/-- The instruction pointer of `astray` is refused as the least word. -/
theorem executes_without_hazard_astray :
    astray.IsReady ∧ 9223372036854775808 ≤ astray.ip.toNat ∧
      Checked.execute Port.detached astray () =
        .ok ⟨.error (.negativeAddress ⟨-9223372036854775808, by decide, by decide⟩
          9223372036854775808), astray, ()⟩ := by
  have hready : astray.IsReady := ⟨by decide, by decide⟩
  have hip : 9223372036854775808 ≤ astray.ip.toNat := by decide
  obtain ⟨hchecked, hrefused, _⟩ := executes_without_hazard Port.detached astray ()
  refine ⟨hready, hip, ?_⟩
  rw [hchecked, hrefused hready hip]
  rfl

end Machine

end Intcode
