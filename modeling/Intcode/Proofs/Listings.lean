import Mathlib.Data.List.Basic
import Intcode.Listing
import Intcode.Proofs.Decoding
import Intcode.Proofs.Lexing
import Intcode.Text.Fields

/-!
# What listings tell

The entries of a listing divide an image up (`Block.Tiles`): they begin at the first word, each one
stands directly behind the one before, and the last one ends where the image ends.  A word is listed
as data only if it cannot be the first one of an instruction that the image has all words of
(`Block.Shows`).

The text of a listing tells the entries (`Block.Shows.line_injective`).  A line consists of pieces
without blanks (`Block.pieces`), so that it can be taken apart at its blanks again.  The first piece
tells the address, the second one the opcode, and every other piece is an operand but for
punctuation that depends on the opcode alone.  An operand in turn tells its mode by the first
characters and its parameter by a numeral.

Hence programs with equal listings have the same entries
(`Program.listing_covers_and_determines`).  They may still differ in the digits of instruction words
that do not matter.
-/

namespace Intcode

namespace Block

variable {cells : List Word} {start : Nat} {b b' : Block} {blocks : List Block}

/-! ## Dividing up an image -/

/-- Tells whether a word is listed as data. -/
def isData : Block → Bool
  | code _ _ _ => false
  | data _ _ => true

/-- The entry shows what an image has at its address. -/
inductive Shows (cells : List Word) : Block → Prop
  /-- The image has an instruction there with all its parameters. -/
  | code {address : Nat} {word : Word} {i : Instruction} {params : List Word}
    (hdecode : Instruction.decode word = .ok i) (hparams : params.length = i.opcode.arity)
    (hcells : word :: params <+: cells.drop address) : Shows cells (.code address i params)
  /-- The image has a word there that is no instruction, or it ends before the instruction does. -/
  | data {address : Nat} {word : Word} (hcells : [word] <+: cells.drop address)
    (hends : ∀ i, Instruction.decode word = .ok i → cells.length < address + i.width) :
    Shows cells (.data address word)

/-- The entries divide up the rest of an image from an address on. -/
inductive Tiles (cells : List Word) : Nat → List Block → Prop
  /-- Nothing is left. -/
  | nil {start : Nat} (hend : start = cells.length) : Tiles cells start []
  /-- The first entry begins at the address, and the others behind it. -/
  | cons {start : Nat} {b : Block} {blocks : List Block} (hstart : b.address = start)
    (hshows : b.Shows cells) (hrest : Tiles cells (start + b.width) blocks) :
    Tiles cells start (b :: blocks)

/-- What is left of an image behind its next words. -/
lemma drop_add_of_drop_eq {word : Word} {rest : List Word} (h : cells.drop start = word :: rest)
    (n : Nat) : cells.drop (start + (1 + n)) = rest.drop n := by
  rw [← List.drop_drop, h, Nat.add_comm 1 n, List.drop_succ_cons]

/-- The walk through an image divides it up. -/
lemma tiles_ofCells {rest : List Word} (hrest : cells.drop start = rest)
    (hle : start ≤ cells.length) : Tiles cells start (ofCells start rest) := by
  induction start, rest using ofCells.induct with
  | case1 start =>
    rw [ofCells]
    exact .nil (Nat.le_antisymm hle (List.drop_eq_nil_iff.1 hrest))
  | case2 start word rest cause hdecode ih =>
    have hlength := congrArg List.length hrest
    rw [List.length_drop, List.length_cons] at hlength
    rw [ofCells, hdecode]
    refine .cons rfl (.data ⟨rest, hrest.symm⟩ fun i hi => ?_) (ih ?_ (by omega))
    · rw [hdecode] at hi
      cases hi
    · exact drop_add_of_drop_eq hrest 0
  | case3 start word rest i hdecode params hparams ih =>
    have hlength := congrArg List.length hrest
    rw [List.length_drop, List.length_cons] at hlength
    have hle' : i.opcode.arity ≤ rest.length := by
      rw [← hparams]
      exact List.length_take_le' _ _
    have hcells : word :: rest.take i.opcode.arity <+: cells.drop start := by
      rw [hrest]
      exact List.cons_prefix_cons.2 ⟨rfl, List.take_prefix _ _⟩
    rw [ofCells, hdecode]
    dsimp only
    rw [if_pos hparams]
    refine .cons rfl (.code hdecode hparams hcells) (ih ?_ ?_)
    · exact drop_add_of_drop_eq hrest i.opcode.arity
    · change start + (1 + i.opcode.arity) ≤ cells.length
      omega
  | case4 start word rest i hdecode params hparams ih =>
    have hlength := congrArg List.length hrest
    rw [List.length_drop, List.length_cons] at hlength
    have hlt : rest.length < i.opcode.arity := by
      rw [List.length_take] at hparams
      omega
    rw [ofCells, hdecode]
    dsimp only
    rw [if_neg hparams]
    refine .cons rfl (.data ⟨rest, hrest.symm⟩ fun i' hi' => ?_) (ih ?_ (by omega))
    · rw [hdecode] at hi'
      cases hi'
      change cells.length < start + (1 + i.opcode.arity)
      omega
    · exact drop_add_of_drop_eq hrest 0

/-- The first entry begins at the address from which on the image is divided up. -/
lemma Tiles.address_head (h : Tiles cells start blocks) : ∀ b ∈ blocks.head?, b.address = start := by
  cases h with
  | nil => exact fun b hb => nomatch hb
  | cons hstart => exact fun b hb => Option.some.inj hb ▸ hstart

/-- Every entry stands directly behind the one before. -/
lemma Tiles.isChain (h : Tiles cells start blocks) :
    blocks.IsChain fun b b' => b'.address = b.address + b.width := by
  induction h with
  | nil => exact .nil
  | @cons start b blocks hstart hshows hrest ih =>
    cases blocks with
    | nil => exact .singleton b
    | cons next blocks =>
      refine .cons_cons ?_ ih
      rw [hrest.address_head next rfl, hstart]

/-- The last entry ends where the image ends. -/
lemma Tiles.end_eq (h : Tiles cells start blocks) (hlast : blocks.getLast? = some b) :
    b.address + b.width = cells.length := by
  induction h with
  | nil => cases hlast
  | @cons start b' blocks hstart hshows hrest ih =>
    cases blocks with
    | nil =>
      obtain rfl : b' = b := Option.some.inj hlast
      cases hrest with
      | nil hend => rw [hstart, hend]
    | cons next blocks =>
      rw [List.getLast?_cons_cons] at hlast
      exact ih hlast

lemma Tiles.shows (h : Tiles cells start blocks) : ∀ b ∈ blocks, b.Shows cells := by
  induction h with
  | nil => exact fun b hb => absurd hb List.not_mem_nil
  | cons hstart hshows hrest ih => exact List.forall_mem_cons.2 ⟨hshows, ih⟩

lemma Tiles.le_address (h : Tiles cells start blocks) : ∀ b ∈ blocks, start ≤ b.address := by
  induction h with
  | nil => exact fun b hb => absurd hb List.not_mem_nil
  | cons hstart hshows hrest ih =>
    refine List.forall_mem_cons.2 ⟨Nat.le_of_eq hstart.symm, fun b hb => ?_⟩
    exact Nat.le_trans (Nat.le_add_right _ _) (ih b hb)

/-- Every place belongs to exactly one entry. -/
lemma Tiles.existsUnique (h : Tiles cells start blocks) {place : Nat} (hle : start ≤ place)
    (hlt : place < cells.length) :
    ∃! b, b ∈ blocks ∧ b.address ≤ place ∧ place < b.address + b.width := by
  induction h with
  | nil hend => exact absurd hlt (by omega)
  | @cons start b blocks hstart hshows hrest ih =>
    have hbehind := hrest.le_address
    by_cases hplace : place < start + b.width
    · refine ⟨b, ⟨List.mem_cons_self, by omega, by omega⟩, ?_⟩
      rintro b' ⟨hmem, hle', _⟩
      rcases List.mem_cons.1 hmem with rfl | hmem
      · rfl
      · have := hbehind b' hmem
        omega
    · obtain ⟨b', ⟨hmem, hcovers⟩, hunique⟩ := ih (Nat.le_of_not_lt hplace)
      refine ⟨b', ⟨List.mem_cons_of_mem b hmem, hcovers⟩, ?_⟩
      rintro b'' ⟨hmem', hle', hlt'⟩
      rcases List.mem_cons.1 hmem' with rfl | hmem'
      · omega
      · exact hunique b'' ⟨hmem', hle', hlt'⟩

/-- Images that are divided up by the same entries are of the same length. -/
lemma Tiles.length_eq {cells' : List Word} (h : Tiles cells start blocks)
    (h' : Tiles cells' start blocks) : cells.length = cells'.length := by
  induction h with
  | nil hend =>
    cases h' with
    | nil hend' => exact hend.symm.trans hend'
  | cons hstart hshows hrest ih =>
    cases h' with
    | cons hstart' hshows' hrest' => exact ih hrest'

/-- What an entry shows begins with the word at its address.  It is listed as data exactly if it is
no instruction or the image ends before the instruction does. -/
lemma Shows.isData_iff (h : b.Shows cells) :
    ∃ word, cells[b.address]? = some word ∧
      (b.isData ↔ ∀ i, Instruction.decode word = .ok i → cells.length < b.address + i.width) := by
  have hhead {word : Word} {params : List Word} {address : Nat}
      (hcells : word :: params <+: cells.drop address) : cells[address]? = some word := by
    obtain ⟨rest, hrest⟩ := hcells
    rw [← List.head?_drop, ← hrest]
    rfl
  cases h with
  | @code address word i params hdecode hparams hcells =>
    refine ⟨word, hhead hcells, fun hdata => Bool.noConfusion hdata, fun hends => ?_⟩
    have hlength := hcells.length_le
    have hcut : cells.length < address + (1 + i.opcode.arity) := hends i hdecode
    rw [List.length_drop, List.length_cons] at hlength
    omega
  | @data address word hcells hends => exact ⟨word, hhead hcells, fun _ => hends, fun _ => rfl⟩

end Block

/-! ## Pieces of text -/

namespace Decimal

lemma isDigit_of_mem_padded {width n : Nat} {c : Char} (h : c ∈ padded width n) :
    c.isDigit = true := by
  rcases List.mem_append.1 h with hzero | hdigit
  · rw [(List.mem_replicate.1 hzero).2]
    rfl
  · exact isDigit_of_mem_digits hdigit

/-- Zeros in front of a numeral do not change what it denotes. -/
lemma readNat?_padded (width n : Nat) : readNat? (padded width n) = some n := by
  have hzeros (zeros : Nat) : Nat.ofDigitChars 10 (List.replicate zeros '0') 0 = 0 := by
    induction zeros with
    | zero => rfl
    | succ zeros ih =>
      rw [List.replicate_succ, Nat.ofDigitChars_cons]
      exact ih
  obtain ⟨hrun, hvalue⟩ := readNat?_eq_some_iff.1 (readNat?_digits n)
  refine readNat?_eq_some_iff.2 ⟨⟨?_, fun c hc => isDigit_of_mem_padded hc⟩, ?_⟩
  · exact List.append_ne_nil_of_right_ne_nil _ hrun.ne_nil
  · unfold padded
    rw [Nat.ofDigitChars_append, hzeros, hvalue]

end Decimal

namespace Word

lemma isNumeral_chars (w : Word) : Decimal.IsNumeral w.chars w.toInt :=
  ofChars?_eq_some_iff.1 (ofChars?_chars w)

/-- Words with the same numeral are the same. -/
lemma eq_of_isNumeral {s : List Char} {w w' : Word} (h : Decimal.IsNumeral s w.toInt)
    (h' : Decimal.IsNumeral s w'.toInt) : w = w' :=
  Option.some.inj ((ofChars?_eq_some_iff.2 h).symm.trans (ofChars?_eq_some_iff.2 h'))

/-- An offset is shown with a sign in any case. -/
lemma isNumeral_offset (w : Word) :
    Decimal.IsNumeral ((if w.toInt < 0 then [] else ['+']) ++ w.chars) w.toInt := by
  by_cases hneg : w.toInt < 0
  · rw [if_pos hneg]
    exact w.isNumeral_chars
  · obtain ⟨n, hn⟩ := Int.eq_ofNat_of_zero_le (Int.not_lt.1 hneg)
    obtain ⟨hrun, hvalue⟩ := Decimal.readNat?_eq_some_iff.1 (Decimal.readNat?_digits n)
    have hchars : w.chars = Decimal.digits n := by
      unfold chars
      rw [hn]
      rfl
    have hplus := Decimal.IsNumeral.plus hrun
    rw [hvalue, ← hn, ← hchars] at hplus
    rw [if_neg hneg]
    exact hplus

end Word

namespace Mode

/-- An operand tells its mode and its parameter. -/
lemma operand_injective {m m' : Mode} {param param' : Word}
    (h : m.operand param = m'.operand param') : m = m' ∧ param = param' := by
  -- The characters that stand in front of an offset are in no numeral.
  have hplain {param param' : Word} : Mode.position.operand param ≠ Mode.relative.operand param' := by
    intro hsame
    have hchars : param.chars ++ [']'] = 'r' :: _ := (List.cons.inj hsame).2
    have hmem : 'r' ∈ param.chars ++ [']'] := hchars ▸ List.mem_cons_self
    rcases List.mem_append.1 hmem with hnumeral | hbracket
    · exact absurd (param.isNumeral_chars.mem_cases hnumeral) (by decide)
    · exact absurd hbracket (by decide)
  cases m with
  | position =>
    cases m' with
    | position =>
      have hchars := List.append_cancel_right (List.cons.inj h).2
      exact ⟨rfl, Word.eq_of_isNumeral (hchars ▸ param.isNumeral_chars) param'.isNumeral_chars⟩
    | immediate => cases (List.cons.inj h).1
    | relative => exact absurd h hplain
  | immediate =>
    cases m' with
    | position => cases (List.cons.inj h).1
    | immediate =>
      have hchars := (List.cons.inj h).2
      exact ⟨rfl, Word.eq_of_isNumeral (hchars ▸ param.isNumeral_chars) param'.isNumeral_chars⟩
    | relative => cases (List.cons.inj h).1
  | relative =>
    cases m' with
    | position => exact absurd h.symm hplain
    | immediate => cases (List.cons.inj h).1
    | relative =>
      unfold operand at h
      simp only [List.append_assoc] at h
      have hoffset := List.append_cancel_left h
      rw [← List.append_assoc, ← List.append_assoc] at hoffset
      have hnumeral := List.append_cancel_right hoffset
      exact ⟨rfl, Word.eq_of_isNumeral (hnumeral ▸ param.isNumeral_offset) param'.isNumeral_offset⟩

lemma space_not_mem_operand (m : Mode) (param : Word) : ' ' ∉ m.operand param := by
  have hnumeral {s : List Char} {n : Int} (h : Decimal.IsNumeral s n) : ' ' ∉ s := fun hmem =>
    absurd (h.mem_cases hmem) (by decide)
  have hchars := hnumeral param.isNumeral_chars
  cases m with
  | position => simp [operand, hchars]
  | immediate => simp [operand, hchars]
  | relative => simp [operand, hchars]

end Mode

namespace Opcode

lemma mnemonic_injective {o o' : Opcode} (h : o.mnemonic.toList = o'.mnemonic.toList) : o = o' := by
  cases o <;> cases o' <;> first | rfl | exact absurd h (by decide)

/-- No opcode has the name of data. -/
lemma mnemonic_ne_data (o : Opcode) : o.mnemonic.toList ≠ ['D', 'A', 'T', 'A'] := by
  cases o <;> decide

lemma space_not_mem_mnemonic (o : Opcode) : ' ' ∉ o.mnemonic.toList := by
  cases o <;> decide

end Opcode

namespace Instruction

variable {i i' : Instruction} {params params' : List Word}

/-- The operands of an instruction as listings show them. -/
def operands (i : Instruction) (params : List Word) : List (List Char) :=
  params.mapIdx fun k param => (i.mode k).operand param

/-- The operands of an instruction with their punctuation, cut at the blanks. -/
def punctuate : List (List Char) → List (List Char)
  | [first, second] => [first ++ [','], second]
  | [first, second, target] => [first ++ [','], second, ['-', '>'], target]
  | operands => operands

lemma space_not_mem_punctuate {operands : List (List Char)}
    (h : ∀ operand ∈ operands, ' ' ∉ operand) : ∀ piece ∈ punctuate operands, ' ' ∉ piece := by
  fun_cases punctuate operands with
  | case1 first second => simpa using h
  | case2 first second target => simpa using h
  | case3 => exact h

/-- Punctuation does not blur the operands, if it is known how many there are. -/
lemma punctuate_injective {operands operands' : List (List Char)}
    (hlength : operands.length = operands'.length) (h : punctuate operands = punctuate operands') :
    operands = operands' := by
  fun_cases punctuate operands with
  | case1 first second =>
    obtain ⟨first', second', rfl⟩ := List.length_eq_two.1 hlength.symm
    simpa [punctuate] using h
  | case2 first second target =>
    obtain ⟨first', second', target', rfl⟩ := List.length_eq_three.1 hlength.symm
    simpa [punctuate] using h
  | case3 operands htwo hthree =>
    have htwo' (first second : List Char) : operands' ≠ [first, second] := by
      rintro rfl
      obtain ⟨first', second', rfl⟩ := List.length_eq_two.1 hlength
      exact htwo first' second' rfl
    have hthree' (first second target : List Char) : operands' ≠ [first, second, target] := by
      rintro rfl
      obtain ⟨first', second', target', rfl⟩ := List.length_eq_three.1 hlength
      exact hthree first' second' target' rfl
    rwa [punctuate.eq_3 operands htwo hthree, punctuate.eq_3 operands' htwo' hthree'] at h

/-- An instruction is shown as its pieces with blanks between them. -/
lemma render_eq (h : params.length = i.opcode.arity) :
    i.render params =
      List.intercalate [' '] (i.opcode.mnemonic.toList :: punctuate (i.operands params)) := by
  obtain ⟨opcode, first, second, third⟩ := i
  cases opcode with
  | add | mul | lessThan | equals =>
    obtain ⟨a, b, c, rfl⟩ := List.length_eq_three.1 h
    simp [render, punctuate, operands, Opcode.arity, Opcode.sourceCount, Opcode.writeParam?,
      List.intercalate_cons_cons]
  | jumpIfTrue | jumpIfFalse =>
    obtain ⟨a, b, rfl⟩ := List.length_eq_two.1 h
    simp [render, punctuate, operands, Opcode.arity, Opcode.sourceCount, Opcode.writeParam?,
      List.intercalate_cons_cons]
  | input | output | adjustRelativeBase =>
    obtain ⟨a, rfl⟩ := List.length_eq_one_iff.1 h
    simp [render, punctuate, operands, Opcode.arity, Opcode.sourceCount, Opcode.writeParam?,
      List.intercalate_cons_cons]
  | halt =>
    obtain rfl := List.length_eq_zero_iff.1 h
    simp [render, punctuate, operands, Opcode.arity, Opcode.sourceCount, Opcode.writeParam?]

lemma space_not_mem_operands (i : Instruction) (params : List Word) :
    ∀ operand ∈ i.operands params, ' ' ∉ operand := by
  intro operand hmem
  obtain ⟨k, hk, rfl⟩ := List.mem_mapIdx.1 hmem
  exact Mode.space_not_mem_operand _ _

/-- Operands tell the instruction and its parameters, if the opcode is known. -/
lemma operands_injective (hopcode : i.opcode = i'.opcode) (hformed : i.WellFormed)
    (hformed' : i'.WellFormed) (hlength : params.length = i.opcode.arity)
    (hlength' : params'.length = i'.opcode.arity) (h : i.operands params = i'.operands params') :
    i = i' ∧ params = params' := by
  have hsame : params.length = params'.length := by rw [hlength, hlength', hopcode]
  have hoperand (k : Nat) (hk : k < params.length) (hk' : k < params'.length) :
      i.mode k = i'.mode k ∧ params[k] = params'[k] := by
    have hshown := congrArg (·[k]?) h
    simp only [operands, List.getElem?_mapIdx, List.getElem?_eq_getElem, hk, hk'] at hshown
    exact Mode.operand_injective (Option.some.inj hshown)
  constructor
  · refine eq_of_mode_eq hopcode fun k => ?_
    by_cases hk : k < params.length
    · exact (hoperand k hk (hsame ▸ hk)).1
    · have hunused : i.opcode.arity ≤ k := hlength ▸ Nat.le_of_not_lt hk
      rw [hformed.unused k hunused, hformed'.unused k (hopcode ▸ hunused)]
  · exact List.ext_getElem hsame fun k hk hk' => (hoperand k hk hk').2

end Instruction

namespace Block

variable {cells cells' : List Word} {b b' : Block}

/-- The pieces of an entry's line between the blanks. -/
def pieces : Block → List (List Char)
  | code address i params =>
    (Decimal.padded 4 address ++ [':']) :: i.opcode.mnemonic.toList ::
      Instruction.punctuate (i.operands params)
  | data address word =>
    [Decimal.padded 4 address ++ [':'], ['D', 'A', 'T', 'A'], word.chars]

lemma Shows.line_eq (h : b.Shows cells) : b.line = List.intercalate [' '] b.pieces := by
  cases h with
  | code hdecode hparams hcells =>
    rw [line, pieces, List.intercalate_cons_cons, Instruction.render_eq hparams]
    simp only [List.append_assoc, List.cons_append, List.nil_append]
  | data hcells hends =>
    rw [line, pieces, List.intercalate_cons_cons, List.intercalate_cons_cons,
      List.intercalate_singleton]
    simp only [List.append_assoc, List.cons_append, List.nil_append]

lemma space_not_mem_pieces (b : Block) : ∀ piece ∈ b.pieces, ' ' ∉ piece := by
  have haddress (address : Nat) : ' ' ∉ Decimal.padded 4 address ++ [':'] := by
    intro hmem
    rcases List.mem_append.1 hmem with hdigit | hcolon
    · exact absurd (Decimal.isDigit_of_mem_padded hdigit) (by decide)
    · exact absurd hcolon (by decide)
  cases b with
  | code address i params =>
    refine List.forall_mem_cons.2 ⟨haddress address, List.forall_mem_cons.2 ⟨?_, ?_⟩⟩
    · exact i.opcode.space_not_mem_mnemonic
    · exact Instruction.space_not_mem_punctuate (i.space_not_mem_operands params)
  | data address word =>
    refine List.forall_mem_cons.2 ⟨haddress address, List.forall_mem_cons.2 ⟨by decide, ?_⟩⟩
    exact List.forall_mem_singleton.2 fun hmem =>
      absurd (word.isNumeral_chars.mem_cases hmem) (by decide)

/-- A line taken apart at its blanks gives its pieces. -/
lemma Shows.fields_line (h : b.Shows cells) : Text.fields ' ' b.line = b.pieces := by
  have hne : b.pieces ≠ [] := by
    cases b with
    | code => exact List.cons_ne_nil _ _
    | data => exact List.cons_ne_nil _ _
  rw [h.line_eq]
  exact Text.fields_intercalate hne b.space_not_mem_pieces

/-- The line of an entry begins with its address. -/
lemma readNat?_line (b : Block) :
    Decimal.readNat? (b.line.takeWhile Char.isDigit) = some b.address := by
  have hbegins (rest : List Char) (address : Nat) :
      (Decimal.padded 4 address ++ ':' :: rest).takeWhile Char.isDigit =
        Decimal.padded 4 address := by
    rw [List.takeWhile_append_of_pos fun c hc => Decimal.isDigit_of_mem_padded hc,
      List.takeWhile_cons_of_neg (by decide), List.append_nil]
  cases b with
  | code address i params =>
    rw [line, List.append_assoc, List.cons_append, hbegins, Decimal.readNat?_padded]
    rfl
  | data address word =>
    rw [line, List.append_assoc, List.cons_append, hbegins, Decimal.readNat?_padded]
    rfl

/-- Entries with the same line are the same. -/
lemma Shows.line_injective (h : b.Shows cells) (h' : b'.Shows cells') (hline : b.line = b'.line) :
    b = b' := by
  have haddress : b.address = b'.address :=
    Option.some.inj (by rw [← b.readNat?_line, ← b'.readNat?_line, hline])
  have hpieces : b.pieces = b'.pieces := by
    rw [← h.fields_line, ← h'.fields_line, hline]
  have hbehind := congrArg List.tail hpieces
  cases h with
  | @code address word i params hdecode hparams hcells =>
    cases h' with
    | @code address' word' i' params' hdecode' hparams' hcells' =>
      obtain ⟨hmnemonic, hpunctuated⟩ := List.cons.inj hbehind
      have hopcode := Opcode.mnemonic_injective hmnemonic
      have hoperands := Instruction.punctuate_injective (by
        rw [Instruction.operands, Instruction.operands, List.length_mapIdx, List.length_mapIdx,
          hparams, hparams', hopcode]) hpunctuated
      obtain ⟨rfl, rfl⟩ := Instruction.operands_injective hopcode
        (Instruction.decode_eq_ok_iff.1 hdecode).wellFormed
        (Instruction.decode_eq_ok_iff.1 hdecode').wellFormed hparams hparams' hoperands
      obtain rfl : address = address' := haddress
      rfl
    | data => exact absurd (List.cons.inj hbehind).1 i.opcode.mnemonic_ne_data
  | @data address word hcells hends =>
    cases h' with
    | @code address' word' i' params' hdecode' hparams' hcells' =>
      exact absurd (List.cons.inj hbehind).1.symm i'.opcode.mnemonic_ne_data
    | @data address' word' hcells' hends' =>
      have hchars : word.chars = word'.chars := (List.cons.inj (List.cons.inj hbehind).2).1
      obtain rfl := Word.eq_of_isNumeral (hchars ▸ word.isNumeral_chars) word'.isNumeral_chars
      obtain rfl : address = address' := haddress
      rfl

/-- Entries are told by their lines. -/
lemma eq_of_map_line_eq {blocks blocks' : List Block} (h : ∀ b ∈ blocks, b.Shows cells)
    (h' : ∀ b ∈ blocks', b.Shows cells') (hlines : blocks.map line = blocks'.map line) :
    blocks = blocks' := by
  induction blocks generalizing blocks' with
  | nil => exact (List.map_eq_nil_iff.1 hlines.symm).symm
  | cons b blocks ih =>
    cases blocks' with
    | nil => cases hlines
    | cons b' blocks' =>
      obtain ⟨hline, hrest⟩ := List.cons.inj hlines
      obtain ⟨hb, hblocks⟩ := List.forall_mem_cons.1 h
      obtain ⟨hb', hblocks'⟩ := List.forall_mem_cons.1 h'
      rw [hb.line_injective hb' hline, ih hblocks hblocks' hrest]

end Block

/-! ## Whole listings -/

namespace Program

/-- The entries divide the image up, and each one shows what the image has at its address. -/
structure IsListedAs (p : Program) (blocks : List Block) : Prop where
  /-- The first entry begins with the first word. -/
  begins : ∀ b ∈ blocks.head?, b.address = 0
  /-- Every entry stands directly behind the one before. -/
  follows : blocks.IsChain fun b b' => b'.address = b.address + b.width
  /-- The last entry ends where the image ends. -/
  ends : ∀ b ∈ blocks.getLast?, b.address + b.width = p.size
  /-- Every place in the image belongs to exactly one entry. -/
  covers : ∀ place < p.size, ∃! b, b ∈ blocks ∧ b.address ≤ place ∧ place < b.address + b.width
  /-- Each entry shows what the image has at its address. -/
  shows : ∀ b ∈ blocks, b.Shows p.cells.toList
  /-- An entry is data exactly if its first word is no instruction or the image ends before the
  instruction does. -/
  isData_iff : ∀ b ∈ blocks, ∃ word, p.get? b.address = some word ∧
    (b.isData ↔ ∀ i, Instruction.decode word = .ok i → p.size < b.address + i.width)
  /-- The line of an entry begins with its address. -/
  tells : ∀ b ∈ blocks, Decimal.readNat? (b.line.takeWhile Char.isDigit) = some b.address

lemma tiles_blocks (p : Program) : Block.Tiles p.cells.toList 0 p.blocks :=
  Block.tiles_ofCells List.drop_zero (Nat.zero_le _)

lemma isListedAs_blocks (p : Program) : p.IsListedAs p.blocks where
  begins := p.tiles_blocks.address_head
  follows := p.tiles_blocks.isChain
  ends := fun b hb => p.tiles_blocks.end_eq hb
  covers := fun place hplace => p.tiles_blocks.existsUnique (Nat.zero_le place) hplace
  shows := p.tiles_blocks.shows
  isData_iff := fun b hb => by
    obtain ⟨word, hword, hdata⟩ := (p.tiles_blocks.shows b hb).isData_iff
    exact ⟨word, (Array.getElem?_toList).symm.trans hword, hdata⟩
  tells := fun b _ => b.readNat?_line

/-- A listing covers an image word by word, and it determines the image up to digits of instruction
words that do not matter: programs with the same listing are of the same length, and each entry
shows the same data or the same instruction with the same parameters in both of them. -/
theorem listing_covers_and_determines (p q : Program) :
    p.IsListedAs p.blocks ∧
      (p.listing = q.listing →
        p.size = q.size ∧ p.blocks = q.blocks ∧
          ∀ b ∈ p.blocks, b.Shows p.cells.toList ∧ b.Shows q.cells.toList) := by
  refine ⟨p.isListedAs_blocks, fun hlisting => ?_⟩
  have hlines : p.blocks.map Block.line = q.blocks.map Block.line := by
    have hchars := congrArg (List.map String.toList) hlisting
    simpa only [listing, List.map_map, Function.comp_def, String.toList_ofList] using hchars
  have hblocks := Block.eq_of_map_line_eq p.tiles_blocks.shows q.tiles_blocks.shows hlines
  have hsize : p.cells.toList.length = q.cells.toList.length :=
    p.tiles_blocks.length_eq (hblocks ▸ q.tiles_blocks)
  refine ⟨hsize, hblocks, fun b hb => ⟨p.tiles_blocks.shows b hb, ?_⟩⟩
  exact q.tiles_blocks.shows b (hblocks ▸ hb)

/-- The entries for the output of a value and a halt. -/
lemma blocks_of_decode {output halt : Word} (value : Word)
    (houtput : Instruction.decode output = .ok ⟨.output, .immediate, .position, .position⟩)
    (hhalt : Instruction.decode halt = .ok ⟨.halt, .position, .position, .position⟩) :
    Program.blocks ⟨#[output, value, halt]⟩ =
      [.code 0 ⟨.output, .immediate, .position, .position⟩ [value],
        .code 2 ⟨.halt, .position, .position, .position⟩ []] := by
  simp [blocks, Block.ofCells, houtput, hhalt, Opcode.arity, Instruction.width, Opcode.width]

/-- Two programs with the same listing, which tells the value that they put out but not the digits
of instruction words that do not matter. -/
theorem listing_covers_and_determines_output :
    let p : Program := ⟨#[.ofCount 104, .minusOne, .ofCount 99]⟩
    let q : Program := ⟨#[.ofCount 31104, .minusOne, .ofCount 199]⟩
    p.listing = q.listing ∧ p.cells ≠ q.cells ∧ p.blocks = q.blocks := by
  intro p q
  have hlisting : p.listing = q.listing := by
    rw [listing, listing, blocks_of_decode .minusOne rfl rfl, blocks_of_decode .minusOne rfl rfl]
  exact ⟨hlisting, by decide, ((listing_covers_and_determines p q).2 hlisting).2.1⟩

end Program

end Intcode
