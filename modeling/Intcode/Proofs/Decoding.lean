import Mathlib.Data.Int.ModEq
import Mathlib.Data.Nat.Find
import Intcode.Proofs.ExactArithmetic

/-!
# Which words are instructions

A word is an instruction if its two lowest digits are the number of an opcode and each digit above
them, as far as the opcode has parameters, is the digit of a mode.  `Word.StandsFor` says so in
terms of decimal digits, and `Word.FailsWith` says what is wrong with every other word: first of all
the number of the opcode, then the lowest digit that is no mode, and only if all digits are modes,
that the instruction would write to a value.  Decoding finds out the one or the other
(`Instruction.decodes_exactly`).

Digits above those of the parameters do not matter.  Two words that stand for instructions with the
same opcode stand for the same instruction exactly if they agree in all the digits below.
-/

namespace Intcode

/-! ## Digits -/

namespace Word

/-- The decimal digit of a word that counts `10 ^ k`. -/
def digit (w : Word) (k : Nat) : Nat := w.toInt.natAbs / 10 ^ k % 10

/-- A word stands for an instruction: its lowest digits are the number of the opcode, and the digits
above them are those of the modes. -/
structure StandsFor (w : Word) (i : Instruction) : Prop where
  /-- The word is not negative. -/
  nonneg : 0 ≤ w.toInt
  /-- The two lowest digits are the number of the opcode. -/
  opcode : w.toInt % 100 = i.opcode.code
  /-- Every parameter has the mode that its digit asks for. -/
  modes : ∀ k < i.opcode.arity, w.digit (k + 2) = (i.mode k).digit
  /-- The instruction does not write to a value, and modes that it does not need are
  `position`. -/
  wellFormed : i.WellFormed

/-- Why a word does not stand for any instruction. -/
inductive FailsWith (w : Word) : DecodeError → Prop
  /-- No opcode has the number that is left when the word is divided by a hundred. -/
  | unknownOpcode (hcode : ∀ o : Opcode, (o.code : Int) ≠ w.toInt.tmod 100) :
    FailsWith w (.unknownOpcode (w.toInt.tmod 100))
  /-- There is an opcode, but the digit of a parameter is that of no mode.  It is the lowest one of
  this kind. -/
  | invalidMode {o : Opcode} {k : Nat} (hcode : (o.code : Int) = w.toInt.tmod 100)
    (hparam : k < o.arity) (hbelow : ∀ j < k, ∃ m : Mode, w.digit (j + 2) = m.digit)
    (hdigit : ∀ m : Mode, w.digit (k + 2) ≠ m.digit) :
    FailsWith w (.invalidMode (w.digit (k + 2)) k)
  /-- All digits are those of modes, but the parameter that names the cell written to is marked as a
  value. -/
  | immediateWrite {o : Opcode} {k : Nat} (hcode : (o.code : Int) = w.toInt.tmod 100)
    (hmodes : ∀ j < o.arity, ∃ m : Mode, w.digit (j + 2) = m.digit)
    (hparam : o.writeParam? = some k) (hdigit : w.digit (k + 2) = Mode.immediate.digit) :
    FailsWith w (.immediateWrite o)

end Word

lemma Mode.digit_injective {m m' : Mode} (h : m.digit = m'.digit) : m = m' := by
  have hsame := Mode.ofDigit?_digit m
  rw [h, Mode.ofDigit?_digit] at hsame
  exact (Option.some.inj hsame).symm

/-- A digit that is not the one of any mode has no mode. -/
lemma Mode.ofDigit?_eq_none {n : Nat} (h : ∀ m : Mode, n ≠ m.digit) : Mode.ofDigit? n = none := by
  have hzero : (n : Int) ≠ 0 := fun hn => h .position (Int.ofNat.inj hn)
  have hone : (n : Int) ≠ 1 := fun hn => h .immediate (Int.ofNat.inj hn)
  have htwo : (n : Int) ≠ 2 := fun hn => h .relative (Int.ofNat.inj hn)
  unfold Mode.ofDigit?
  rw [if_neg hzero, if_neg hone, if_neg htwo]

namespace Instruction

variable {w w' : Word} {i i' : Instruction} {o : Opcode} {e : DecodeError} {k : Nat} {m : Mode}

/-! ## One digit after another -/

/-- What is left of a word above its two lowest digits and those of the first parameters. -/
def digitsFrom (w : Word) (k : Nat) : Int := (w.toInt.natAbs / 10 ^ (k + 2) : Nat)

/-- Cutting off a digit leaves the digits from the next one on. -/
lemma tdiv_digitsFrom (w : Word) (k : Nat) : (digitsFrom w k).tdiv 10 = digitsFrom w (k + 1) := by
  have hpow : w.toInt.natAbs / 10 ^ (k + 1 + 2) = w.toInt.natAbs / 10 ^ (k + 2) / 10 := by
    rw [Nat.div_div_eq_div_mul, ← pow_succ]
  unfold digitsFrom
  rw [hpow]
  exact (Int.ofNat_tdiv _ 10).symm

lemma tmod_digitsFrom (w : Word) (k : Nat) : (digitsFrom w k).tmod 10 = w.digit (k + 2) :=
  (Int.ofNat_tmod _ 10).symm

/-- A parameter gets the mode of its digit, if the opcode has it. -/
lemma slot_of_mode (hdigit : k < o.arity → w.digit (k + 2) = m.digit)
    (hunused : o.arity ≤ k → m = .position) : slot o k (digitsFrom w k) = .ok m := by
  unfold slot
  rw [tmod_digitsFrom]
  by_cases hk : k < o.arity
  · rw [if_pos hk, hdigit hk, Mode.ofDigit?_digit]
  · rw [if_neg hk, hunused (Nat.le_of_not_lt hk)]

/-- There is an error if the digit of a parameter is that of no mode. -/
lemma slot_of_no_mode (hk : k < o.arity) (hdigit : ∀ m : Mode, w.digit (k + 2) ≠ m.digit) :
    slot o k (digitsFrom w k) = .error (.invalidMode (w.digit (k + 2)) k) := by
  unfold slot
  rw [tmod_digitsFrom, if_pos hk, Mode.ofDigit?_eq_none hdigit]

/-- A word whose opcode has a number is not negative. -/
lemma nonneg_of_code (hcode : (o.code : Int) = w.toInt.tmod 100) : 0 ≤ w.toInt := by
  by_contra hneg
  have hrem := Int.tmod_nonneg 100 (a := -w.toInt) (by omega)
  have hpos : 0 < o.code := by cases o <;> decide
  rw [Int.neg_tmod] at hrem
  omega

/-- A word with an opcode is decoded digit by digit. -/
lemma decode_of_code (hcode : (o.code : Int) = w.toInt.tmod 100) :
    decode w = (do
      let first ← slot o 0 (digitsFrom w 0)
      let second ← slot o 1 (digitsFrom w 1)
      let third ← slot o 2 (digitsFrom w 2)
      checkTarget ⟨o, first, second, third⟩) := by
  have hdigits : w.toInt.tdiv 100 = digitsFrom w 0 := by
    conv_lhs => rw [← Int.natAbs_of_nonneg (nonneg_of_code hcode)]
    exact (Int.ofNat_tdiv _ 100).symm
  unfold decode decodeOpcode
  rw [← hcode, Opcode.ofCode?_code, hdigits]
  dsimp only
  rw [tdiv_digitsFrom, tdiv_digitsFrom]
  rfl

/-- If all digits are those of modes, it only remains to be checked what is written to. -/
lemma decode_of_modes (hcode : (i.opcode.code : Int) = w.toInt.tmod 100)
    (hmodes : ∀ k < i.opcode.arity, w.digit (k + 2) = (i.mode k).digit)
    (hunused : ∀ k, i.opcode.arity ≤ k → i.mode k = .position) : decode w = checkTarget i := by
  have hslot (k : Nat) : slot i.opcode k (digitsFrom w k) = .ok (i.mode k) :=
    slot_of_mode (hmodes k) (hunused k)
  rw [decode_of_code hcode, hslot 0, hslot 1, hslot 2]
  rfl

/-- The lowest digit that is no mode ends decoding. -/
lemma decode_of_no_mode (hcode : (o.code : Int) = w.toInt.tmod 100) (hk : k < o.arity)
    (hbelow : ∀ j < k, ∃ m : Mode, w.digit (j + 2) = m.digit)
    (hdigit : ∀ m : Mode, w.digit (k + 2) ≠ m.digit) :
    decode w = .error (.invalidMode (w.digit (k + 2)) k) := by
  have hslot := slot_of_no_mode hk hdigit
  have hslots : ∀ j < k, ∃ m, slot o j (digitsFrom w j) = .ok m := by
    intro j hj
    obtain ⟨m, hm⟩ := hbelow j hj
    have hused : ¬ o.arity ≤ j := Nat.not_le.2 (Nat.lt_trans hj hk)
    exact ⟨m, slot_of_mode (fun _ => hm) (fun hle => absurd hle hused)⟩
  have hthree := Checked.arity_le_three o
  rw [decode_of_code hcode]
  obtain rfl | rfl | rfl : k = 0 ∨ k = 1 ∨ k = 2 := by omega
  · rw [hslot]
    rfl
  · obtain ⟨first, hfirst⟩ := hslots 0 (by decide)
    rw [hfirst, hslot]
    rfl
  · obtain ⟨first, hfirst⟩ := hslots 0 (by decide)
    obtain ⟨second, hsecond⟩ := hslots 1 (by decide)
    rw [hfirst, hsecond, hslot]
    rfl

lemma checkTarget_of_ne (h : ∀ k, i.opcode.writeParam? = some k → i.mode k ≠ .immediate) :
    checkTarget i = .ok i := by
  unfold checkTarget
  cases hparam : i.opcode.writeParam? with
  | none => rfl
  | some k => exact if_neg (h k hparam)

lemma checkTarget_of_eq (hparam : i.opcode.writeParam? = some k) (hmode : i.mode k = .immediate) :
    checkTarget i = .error (.immediateWrite i.opcode) := by
  unfold checkTarget
  rw [hparam]
  exact if_pos hmode

/-! ## Words that are instructions, and words that are not -/

/-- Digits that are those of modes belong to an instruction. -/
lemma exists_modes (h : ∀ j < o.arity, ∃ m : Mode, w.digit (j + 2) = m.digit) :
    ∃ i : Instruction, i.opcode = o ∧ (∀ k < o.arity, w.digit (k + 2) = (i.mode k).digit) ∧
      ∀ k, o.arity ≤ k → i.mode k = .position := by
  have hmode (k : Nat) : ∃ m : Mode, (k < o.arity → w.digit (k + 2) = m.digit) ∧
      (o.arity ≤ k → m = .position) := by
    by_cases hk : k < o.arity
    · obtain ⟨m, hm⟩ := h k hk
      exact ⟨m, fun _ => hm, fun hle => absurd hk (Nat.not_lt.2 hle)⟩
    · exact ⟨.position, fun hlt => absurd hlt hk, fun _ => rfl⟩
  choose modes hmodes hunused using hmode
  have hthree := Checked.arity_le_three o
  refine ⟨⟨o, modes 0, modes 1, modes 2⟩, rfl, fun k hk => ?_, fun k hk => ?_⟩
  · obtain rfl | rfl | rfl : k = 0 ∨ k = 1 ∨ k = 2 := by omega
    all_goals exact hmodes _ hk
  · match k with
    | 0 => exact hunused 0 hk
    | 1 => exact hunused 1 hk
    | 2 => exact hunused 2 hk
    | _ + 3 => rfl

/-- A word that stands for an instruction is decoded as that instruction. -/
lemma decode_of_standsFor (h : w.StandsFor i) : decode w = .ok i := by
  have hcode : (i.opcode.code : Int) = w.toInt.tmod 100 := by
    rw [Int.tmod_eq_emod_of_nonneg h.nonneg, h.opcode]
  rw [decode_of_modes hcode h.modes h.wellFormed.unused]
  exact checkTarget_of_ne h.wellFormed.target

/-- What is wrong with a word is the error that decoding gives. -/
lemma decode_of_failsWith (h : w.FailsWith e) : decode w = .error e := by
  cases h with
  | unknownOpcode hcode =>
    cases hopcode : Opcode.ofCode? (w.toInt.tmod 100) with
    | some o => exact absurd (Opcode.code_of_ofCode? hopcode) (hcode o)
    | none =>
      unfold decode decodeOpcode
      rw [hopcode]
      rfl
  | invalidMode hcode hparam hbelow hdigit => exact decode_of_no_mode hcode hparam hbelow hdigit
  | immediateWrite hcode hmodes hparam hdigit =>
    obtain ⟨i, rfl, hdigits, hunused⟩ := exists_modes hmodes
    have hk := Checked.lt_arity_of_writeParam? hparam
    have himmediate : i.mode _ = .immediate := Mode.digit_injective ((hdigits _ hk).symm.trans hdigit)
    rw [decode_of_modes hcode hdigits hunused]
    exact checkTarget_of_eq hparam himmediate

/-- Every word stands for an instruction, or there is something wrong with it. -/
lemma stands_or_fails (w : Word) : (∃ i, w.StandsFor i) ∨ ∃ e, w.FailsWith e := by
  by_cases hopcode : ∃ o : Opcode, (o.code : Int) = w.toInt.tmod 100
  · obtain ⟨o, hcode⟩ := hopcode
    by_cases hmodes : ∀ k < o.arity, ∃ m : Mode, w.digit (k + 2) = m.digit
    · obtain ⟨i, rfl, hdigits, hunused⟩ := exists_modes hmodes
      by_cases htarget : ∀ k, i.opcode.writeParam? = some k → i.mode k ≠ .immediate
      · have hnonneg := nonneg_of_code hcode
        have hlow : w.toInt % 100 = i.opcode.code := by
          rw [hcode, Int.tmod_eq_emod_of_nonneg hnonneg]
        exact Or.inl ⟨i, hnonneg, hlow, hdigits, htarget, hunused⟩
      · push Not at htarget
        obtain ⟨k, hparam, himmediate⟩ := htarget
        have hk := Checked.lt_arity_of_writeParam? hparam
        exact Or.inr ⟨_, .immediateWrite hcode hmodes hparam (himmediate ▸ hdigits k hk)⟩
    · -- Of the parameters whose digits are those of no mode the first one counts.
      push Not at hmodes
      classical
      obtain ⟨hk, hdigit⟩ := Nat.find_spec hmodes
      refine Or.inr ⟨_, .invalidMode hcode hk (fun j hj => ?_) hdigit⟩
      by_contra hnone
      push Not at hnone
      exact Nat.find_min hmodes hj ⟨Nat.lt_trans hj hk, hnone⟩
  · push Not at hopcode
    exact Or.inr ⟨_, .unknownOpcode hopcode⟩

lemma decode_eq_ok_iff : decode w = .ok i ↔ w.StandsFor i := by
  refine ⟨fun h => ?_, decode_of_standsFor⟩
  rcases stands_or_fails w with ⟨i', hstands⟩ | ⟨e, hfails⟩
  · rw [decode_of_standsFor hstands] at h
    cases h
    exact hstands
  · rw [decode_of_failsWith hfails] at h
    cases h

lemma decode_eq_error_iff : decode w = .error e ↔ w.FailsWith e := by
  refine ⟨fun h => ?_, decode_of_failsWith⟩
  rcases stands_or_fails w with ⟨i, hstands⟩ | ⟨e', hfails⟩
  · rw [decode_of_standsFor hstands] at h
    cases h
  · rw [decode_of_failsWith hfails] at h
    cases h
    exact hfails

/-! ## Putting words together -/

/-- A well-formed instruction can be put together again from its word. -/
theorem decode_encode (h : i.WellFormed) : decode i.encode = .ok i := by
  have hcode : i.opcode.code < 100 := by cases i.opcode <;> decide
  have hdigit (m : Mode) : m.digit < 10 := by cases m <;> decide
  have hfirst := hdigit i.first
  have hsecond := hdigit i.second
  have hthird := hdigit i.third
  have hvalue : i.encode.toInt = ((i.opcode.code + 100 * i.first.digit + 1000 * i.second.digit +
      10000 * i.third.digit : Nat) : Int) := by
    simp only [encode]
    push_cast
    rfl
  refine decode_of_standsFor ⟨?_, ?_, fun k hk => ?_, h⟩
  · rw [hvalue]
    exact Int.natCast_nonneg _
  · rw [hvalue]
    omega
  · have hthree := Checked.arity_le_three i.opcode
    unfold Word.digit
    rw [hvalue, Int.natAbs_natCast]
    obtain rfl | rfl | rfl : k = 0 ∨ k = 1 ∨ k = 2 := by omega
    all_goals
      simp only [mode]
      omega

/-! ## Words that stand for the same -/

/-- Two numbers with the same lowest digits agree in more digits exactly if these are the same. -/
lemma mod_pow_eq_iff {a b : Nat} (h : a % 100 = b % 100) (n : Nat) :
    a % 10 ^ (2 + n) = b % 10 ^ (2 + n) ↔
      ∀ k < n, a / 10 ^ (k + 2) % 10 = b / 10 ^ (k + 2) % 10 := by
  induction n with
  | zero => exact iff_of_true h fun k hk => absurd hk (Nat.not_lt_zero k)
  | succ n ih =>
    rw [Nat.forall_lt_succ_right, ← ih, ← Nat.add_assoc, Nat.mod_pow_succ, Nat.mod_pow_succ,
      Nat.add_comm n 2]
    constructor
    · intro hsum
      have hlow := congrArg (· % 10 ^ (2 + n)) hsum
      simp only [Nat.add_mul_mod_self_left, Nat.mod_mod] at hlow
      rw [hlow] at hsum
      have hpos : 0 < 10 ^ (2 + n) := Nat.pow_pos (by decide)
      exact ⟨hlow, Nat.eq_of_mul_eq_mul_left hpos (Nat.add_left_cancel hsum)⟩
    · rintro ⟨hlow, hdigit⟩
      rw [hlow, hdigit]

lemma eq_of_mode_eq (hopcode : i.opcode = i'.opcode) (hmode : ∀ k, i.mode k = i'.mode k) :
    i = i' := by
  obtain ⟨opcode, first, second, third⟩ := i
  obtain ⟨opcode', first', second', third'⟩ := i'
  obtain rfl : opcode = opcode' := hopcode
  obtain rfl : first = first' := hmode 0
  obtain rfl : second = second' := hmode 1
  obtain rfl : third = third' := hmode 2
  rfl

/-- Words stand for the same instruction exactly if they have the same opcode and agree in the
digits of its number and of its parameters. -/
lemma eq_iff_modEq (h : w.StandsFor i) (h' : w'.StandsFor i') :
    i = i' ↔ i.opcode = i'.opcode ∧ w.toInt ≡ w'.toInt [ZMOD 10 ^ (2 + i.opcode.arity)] := by
  have hvalue : w.toInt = w.toInt.natAbs := (Int.natAbs_of_nonneg h.nonneg).symm
  have hvalue' : w'.toInt = w'.toInt.natAbs := (Int.natAbs_of_nonneg h'.nonneg).symm
  have hcode := h.opcode
  have hcode' := h'.opcode
  have hmod : w.toInt ≡ w'.toInt [ZMOD 10 ^ (2 + i.opcode.arity)] ↔
      w.toInt.natAbs % 10 ^ (2 + i.opcode.arity) =
        w'.toInt.natAbs % 10 ^ (2 + i.opcode.arity) := by
    rw [hvalue, hvalue', ← Nat.cast_ofNat, ← Nat.cast_pow, Int.natCast_modEq_iff]
    rfl
  rw [hmod]
  constructor
  · rintro rfl
    refine ⟨rfl, (mod_pow_eq_iff (by omega) _).2 fun k hk => ?_⟩
    exact (h.modes k hk).trans (h'.modes k hk).symm
  · rintro ⟨hopcode, hdigits⟩
    rw [← hopcode] at hcode'
    refine eq_of_mode_eq hopcode fun k => ?_
    by_cases hk : k < i.opcode.arity
    · have hdigit := (mod_pow_eq_iff (by omega) _).1 hdigits k hk
      refine Mode.digit_injective ?_
      rw [← h.modes k hk, ← h'.modes k (hopcode ▸ hk)]
      exact hdigit
    · have hle := Nat.le_of_not_lt hk
      rw [h.wellFormed.unused k hle, h'.wellFormed.unused k (hopcode ▸ hle)]

/-- Decoding gives the instruction that a word stands for, and otherwise says what is wrong with the
word.  The word of a well-formed instruction is decoded as that instruction, and two words are
decoded alike exactly if they have the same opcode and agree in the digits that belong to it. -/
theorem decodes_exactly (w : Word) :
    (∀ i, decode w = .ok i ↔ w.StandsFor i) ∧ (∀ e, decode w = .error e ↔ w.FailsWith e) ∧
      (∀ i : Instruction, i.WellFormed → decode i.encode = .ok i) ∧
      ∀ w' i i', decode w = .ok i → decode w' = .ok i' →
        (i = i' ↔
          i.opcode = i'.opcode ∧ w.toInt ≡ w'.toInt [ZMOD 10 ^ (2 + i.opcode.arity)]) := by
  refine ⟨fun i => decode_eq_ok_iff, fun e => decode_eq_error_iff, fun i => decode_encode, ?_⟩
  intro w' i i' h h'
  exact eq_iff_modEq (decode_eq_ok_iff.1 h) (decode_eq_ok_iff.1 h')

/-- A product whose first parameter is an address and whose second one is the value itself. -/
def doubling : Instruction := ⟨.mul, .position, .immediate, .position⟩

/-- A word with a digit above those of the three parameters is decoded as `doubling`, too. -/
theorem decodes_exactly_doubling :
    doubling.WellFormed ∧ decode doubling.encode = .ok doubling ∧
      decode ⟨701002, by omega, by omega⟩ = .ok doubling ∧
        doubling.encode.toInt ≡ 701002 [ZMOD 10 ^ 5] := by
  have hformed : doubling.WellFormed := by
    refine ⟨fun k hk => ?_, fun k hk => ?_⟩
    · cases hk
      decide
    · match k with
      | _ + 3 => rfl
  obtain ⟨_, _, hencode, halike⟩ := decodes_exactly doubling.encode
  have hdecode : decode ⟨701002, by omega, by omega⟩ = .ok doubling := rfl
  have hdoubling := hencode doubling hformed
  exact ⟨hformed, hdoubling, hdecode, ((halike _ _ _ hdoubling hdecode).1 rfl).2⟩

end Instruction

end Intcode
