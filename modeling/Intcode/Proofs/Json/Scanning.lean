import Intcode.Json.Token
import Mathlib.Data.List.Basic

/-!
# Written tokens are scanned again

The scanner finds the tokens of every text that spells them (`Spells.scan`).  A text spells a list
of tokens if it is these tokens as they are written, with blanks between them or not, where two
values without parts are never next to each other.

Numbers with a fraction or an exponent, and strings with control characters or code units, are not
considered here, since nothing that is written in this library has them.
-/

namespace Intcode.Json

/-! ## Strings -/

/-- A part of a string is plain if it is a character and no control character. -/
def StringPart.IsPlain : StringPart → Prop
  | .char c => 0x20 ≤ c.toNat
  | .unit _ => False

lemma scanString_chars {part : StringPart} (hplain : part.IsPlain) (done : List StringPart)
    (rest : List Char) :
    scanString done (part.chars ++ rest) = scanString (part :: done) rest := by
  cases part with
  | unit n => exact hplain.elim
  | char c =>
    have hcontrol (d : Char) (hd : d.toNat < 0x20) : c ≠ d := by
      rintro rfl
      exact absurd hplain (Nat.not_le_of_lt hd)
    by_cases hquote : c = '"'
    · subst hquote
      rfl
    · by_cases hslash : c = '\\'
      · subst hslash
        rfl
      · have hchars : (StringPart.char c).chars = [c] := by
          simp only [StringPart.chars, hquote, hslash, hcontrol '\n' (by decide),
            hcontrol '\r' (by decide), hcontrol '\t' (by decide), hcontrol '\x08' (by decide),
            hcontrol '\x0c' (by decide), Nat.not_lt.2 hplain, if_false]
        rw [hchars, List.singleton_append, scanString]
        · exact if_neg (Nat.not_lt.2 hplain)
        all_goals simp_all

/-- A string is scanned up to its closing quote. -/
lemma scanString_flatMap {parts : List StringPart} (hplain : ∀ part ∈ parts, part.IsPlain)
    (done : List StringPart) (rest : List Char) :
    scanString done (parts.flatMap StringPart.chars ++ '"' :: rest) =
      some (done.reverse ++ parts, rest) := by
  induction parts generalizing done with
  | nil => simp [scanString]
  | cons part parts ih =>
    obtain ⟨hpart, hparts⟩ := List.forall_mem_cons.1 hplain
    rw [List.flatMap_cons, List.append_assoc, scanString_chars hpart, ih hparts,
      List.reverse_cons, List.append_assoc]
    rfl

/-! ## Numbers and words -/

/-- A text goes on after a number or a word with a character that belongs to neither. -/
def Ends (rest : List Char) : Prop :=
  ∀ c ∈ rest.head?, isNumberChar c = false ∧ c.isAlpha = false

lemma ends_of_isBlank {c : Char} (h : Text.isBlank c = true) (rest : List Char) :
    Ends (c :: rest) := by
  simp only [Text.isBlank, Bool.or_eq_true, decide_eq_true_eq] at h
  rintro _ ⟨⟩
  rcases h with ((rfl | rfl) | rfl) | rfl <;> decide

/-- A punctuation mark is no blank, does not belong to a number or a word, and is no value. -/
lemma of_ofMark? {c : Char} {token : Token} (h : Token.ofMark? c = some token) :
    Text.isBlank c = false ∧ isNumberChar c = false ∧ c.isAlpha = false ∧
      ∀ s, token ≠ .scalar s := by
  unfold Token.ofMark? at h
  split_ifs at h <;> cases h <;> subst_vars <;> simp <;> decide

/-- Only the numeral of zero begins with a zero. -/
lemma eq_zero_of_head?_digits {n : Nat} (h : (Decimal.digits n).head? = some '0') : n = 0 := by
  induction n using Nat.strongRecOn with
  | ind n ih =>
    unfold Decimal.digits at h ih
    by_cases hsmall : n < 10
    · rw [Nat.toDigits_of_lt_base hsmall] at h
      exact Nat.digitChar_eq_zero.1 (Option.some.inj h)
    · rw [Nat.toDigits_of_base_le (by decide) (Nat.le_of_not_lt hsmall), List.head?_append_of_ne_nil
        _ Nat.toDigits_ne_nil] at h
      have hquotient := ih (n / 10) (by omega) h
      omega

lemma takeWhile_dropWhile_digits (n : Nat) :
    (Decimal.digits n).takeWhile Char.isDigit = Decimal.digits n ∧
      (Decimal.digits n).dropWhile Char.isDigit = [] := by
  have hrun := @Text.takeWhile_dropWhile_append Char.isDigit (Decimal.digits n) []
    (fun _ => Decimal.isDigit_of_mem_digits) (by simp)
  rwa [List.append_nil] at hrun

/-- The digits of a number are not refused as an empty numeral or for a leading zero. -/
lemma not_leading_digits (n : Nat) :
    ((Decimal.digits n).isEmpty ||
      ((Decimal.digits n).head? = some '0' && (Decimal.digits n).length ≠ 1)) = false := by
  have hempty : (Decimal.digits n).isEmpty = false :=
    List.isEmpty_eq_false_iff.2 (Decimal.digits_ne_nil n)
  rw [hempty, Bool.false_or, Bool.and_eq_false_imp]
  intro hzero
  rw [eq_zero_of_head?_digits (of_decide_eq_true hzero)]
  rfl

/-- A numeral is a number, whether it has a minus sign or not. -/
lemma number?_signed (z : Int) : number? (Decimal.signed z) = some (.integer z) := by
  have hvalue (n : Nat) : Nat.ofDigitChars 10 (Decimal.digits n) 0 = n :=
    Nat.ofDigitChars_ten_toDigits
  have hwhole := takeWhile_dropWhile_digits
  have hleading := not_leading_digits
  cases z with
  | ofNat n =>
    have hminus (size : List Char) : Decimal.digits n ≠ '-' :: size := by
      intro hdigits
      have hdigit := Decimal.isDigit_of_mem_digits (n := n) (c := '-') (by simp [hdigits])
      exact absurd hdigit (by decide)
    change number? (Decimal.digits n) = _
    unfold number?
    split
    rename_i hsign
    split at hsign
    · rename_i size hdigits
      exact absurd hdigits (hminus size)
    · cases hsign
      simp only [hwhole, hleading, hvalue]
      rfl
  | negSucc n =>
    change number? ('-' :: Decimal.digits (n + 1)) = _
    unfold number?
    simp only [hwhole, hleading, hvalue]
    rfl

lemma signed_ne_nil (z : Int) : Decimal.signed z ≠ [] := by
  cases z with
  | ofNat n => exact Decimal.digits_ne_nil n
  | negSucc n => exact List.cons_ne_nil _ _

lemma isNumberChar_of_mem_signed {z : Int} {c : Char} (h : c ∈ Decimal.signed z) :
    isNumberChar c = true := by
  have hdigit {n : Nat} (hc : c ∈ Decimal.digits n) : isNumberChar c = true := by
    unfold isNumberChar
    rw [Decimal.isDigit_of_mem_digits hc]
    rfl
  cases z with
  | ofNat n => exact hdigit h
  | negSucc n =>
    rcases List.mem_cons.1 h with rfl | hc
    · rfl
    · exact hdigit hc

/-! ## Tokens -/

/-- A value without parts is plain if it is `null`, a truth value, an integer or a string of plain
parts. -/
def Scalar.IsPlain : Scalar → Prop
  | .null | .bool _ | .integer _ => True
  | .decimal _ => False
  | .string parts => ∀ part ∈ parts, part.IsPlain

namespace Token

/-- A token is a mark if it is a single character. -/
def IsMark (token : Token) : Prop := ∃ c, token.chars = [c] ∧ ofMark? c = some token

/-- A word in front of a text that does not go on with it is scanned as a whole. -/
lemma leading?_word {c : Char} {word rest : List Char} {s : Scalar}
    (hfirst : ofMark? c = none ∧ c ≠ '"' ∧ isNumberChar c = false)
    (hword : word.all Char.isAlpha = true) (hvalue : word? (c :: word) = some s)
    (hrest : Ends rest) :
    leading? (c :: word ++ rest) = some (.scalar s, rest) := by
  obtain ⟨hmark, hquote, hnumber⟩ := hfirst
  obtain ⟨htake, hdrop⟩ := Text.takeWhile_dropWhile_append (List.all_eq_true.1 hword)
    fun d hd => (hrest d hd).2
  have hnumber' : ¬ isNumberChar c = true := by simp [hnumber]
  rw [List.cons_append, leading?, hmark]
  simp only [if_neg hquote, if_neg hnumber', htake, hdrop, hvalue, Option.map_some]

/-- A numeral in front of a text that does not go on with it is scanned as a whole. -/
lemma leading?_numeral (z : Int) {rest : List Char} (hrest : Ends rest) :
    leading? (Decimal.signed z ++ rest) = some (.scalar (.integer z), rest) := by
  have hnumber := @isNumberChar_of_mem_signed z
  have hvalue := number?_signed z
  obtain ⟨c, numeral, hsigned⟩ := List.exists_cons_of_ne_nil (signed_ne_nil z)
  rw [hsigned] at hnumber hvalue ⊢
  have hc := hnumber List.mem_cons_self
  have hmark : ofMark? c = none := by
    rw [Option.eq_none_iff_forall_ne_some]
    intro token hmark
    obtain ⟨_, hother, _⟩ := of_ofMark? hmark
    rw [hc] at hother
    cases hother
  have hquote : c ≠ '"' := by
    rintro rfl
    exact absurd hc (by decide)
  obtain ⟨htake, hdrop⟩ := Text.takeWhile_dropWhile_append
    (fun d hd => hnumber (List.mem_cons_of_mem c hd)) fun d hd => (hrest d hd).1
  rw [List.cons_append, leading?, hmark]
  simp only [if_neg hquote, if_pos hc, htake, hdrop, hvalue, Option.map_some]

/-- A plain value without parts is scanned as it is written. -/
lemma leading?_scalar {s : Scalar} (hplain : s.IsPlain) {rest : List Char} (hrest : Ends rest) :
    leading? (s.chars ++ rest) = some (.scalar s, rest) := by
  cases s with
  | null => exact leading?_word (by decide) rfl rfl hrest
  | bool b =>
    cases b with
    | true => exact leading?_word (by decide) rfl rfl hrest
    | false => exact leading?_word (by decide) rfl rfl hrest
  | integer z => exact leading?_numeral z hrest
  | decimal text => exact hplain.elim
  | string parts =>
    have hscan := scanString_flatMap hplain [] rest
    change leading? ('"' :: (parts.flatMap StringPart.chars ++ ['"']) ++ rest) = _
    rw [List.cons_append, List.append_assoc, List.singleton_append, leading?]
    simp only [show ofMark? '"' = none by decide, hscan, if_true]
    rfl

/-- A plain value without parts is written with something, and not with a blank in front. -/
lemma exists_chars_eq_cons {s : Scalar} (hplain : s.IsPlain) :
    ∃ c rest, s.chars = c :: rest ∧ Text.isBlank c = false := by
  cases s with
  | null => exact ⟨_, _, rfl, by decide⟩
  | bool b => cases b <;> exact ⟨_, _, rfl, by decide⟩
  | integer z =>
    obtain ⟨c, numeral, hsigned⟩ := List.exists_cons_of_ne_nil (signed_ne_nil z)
    have hnumber := isNumberChar_of_mem_signed (z := z) (c := c) (by simp [hsigned])
    refine ⟨c, numeral, hsigned, Bool.eq_false_iff.2 fun hblank => ?_⟩
    obtain ⟨hother, _⟩ := ends_of_isBlank hblank [] c rfl
    rw [hnumber] at hother
    cases hother
  | decimal text => exact hplain.elim
  | string parts => exact ⟨_, _, rfl, by decide⟩

end Token

/-! ## Texts that spell tokens -/

/-- A text spells tokens if it is made of them as they are written, with blanks anywhere between
them, and a mark or the end of the text follows every value without parts. -/
inductive Spells : List Token → List Char → Prop where
  | nil : Spells [] []
  | blank {c : Char} {tokens : List Token} {text : List Char} :
      Text.isBlank c = true → Spells tokens text → Spells tokens (c :: text)
  | mark {token : Token} {tokens : List Token} {text : List Char} :
      token.IsMark → Spells tokens text → Spells (token :: tokens) (token.chars ++ text)
  | scalar {s : Scalar} {tokens : List Token} {text : List Char} :
      s.IsPlain → (∀ token ∈ tokens.head?, token.IsMark) → Spells tokens text →
      Spells (.scalar s :: tokens) (s.chars ++ text)

namespace Spells

variable {tokens : List Token} {text : List Char}

/-- Neither a mark nor a blank nor the end of the text goes on with a number or a word. -/
lemma ends (h : Spells tokens text) (hmark : ∀ token ∈ tokens.head?, token.IsMark) :
    Ends text := by
  cases h with
  | nil => exact fun c hc => nomatch hc
  | blank hblank _ => exact ends_of_isBlank hblank _
  | mark htoken _ =>
    obtain ⟨d, hchars, hd⟩ := htoken
    obtain ⟨_, hnumber, halpha, _⟩ := of_ofMark? hd
    rw [hchars]
    rintro c ⟨⟩
    exact ⟨hnumber, halpha⟩
  | scalar _ _ _ =>
    obtain ⟨c, _, hc⟩ := hmark _ rfl
    obtain ⟨_, _, _, hscalar⟩ := of_ofMark? hc
    exact absurd rfl (hscalar _)

/-- The first token of a text is found behind those that have been found before. -/
lemma scanFrom_of_leading? {c : Char} {rest text : List Char} {token : Token}
    (hblank : Text.isBlank c = false) (hleading : Token.leading? (c :: rest) = some (token, text))
    (done : List Token) :
    Token.scanFrom done (c :: rest) = Token.scanFrom (token :: done) text := by
  rw [Token.scanFrom, if_neg (by simp [hblank])]
  split
  · rename_i hnone
    rw [hnone] at hleading
    cases hleading
  · rename_i hsome
    rw [hsome] at hleading
    cases hleading
    rfl

/-- The tokens of a text are those that it spells, whatever has been found before them. -/
lemma scanFrom (h : Spells tokens text) (done : List Token) :
    Token.scanFrom done text = some (done.reverse ++ tokens) := by
  induction h generalizing done with
  | nil => rw [Token.scanFrom, List.append_nil]
  | blank hblank _ ih => rw [Token.scanFrom, if_pos hblank, ih]
  | @mark token tokens text hmark _ ih =>
    obtain ⟨c, hchars, hc⟩ := hmark
    obtain ⟨hblank, _⟩ := of_ofMark? hc
    have hleading : Token.leading? (c :: text) = some (token, text) := by
      rw [Token.leading?, hc]
    rw [hchars, List.singleton_append, scanFrom_of_leading? hblank hleading, ih,
      List.reverse_cons, List.append_assoc, List.singleton_append]
  | @scalar s tokens text hplain hmark hspells ih =>
    obtain ⟨c, rest, hchars, hblank⟩ := Token.exists_chars_eq_cons hplain
    have hleading := Token.leading?_scalar hplain (hspells.ends hmark)
    rw [hchars, List.cons_append] at hleading ⊢
    rw [scanFrom_of_leading? hblank hleading, ih, List.reverse_cons, List.append_assoc,
      List.singleton_append]

/-- The tokens of a text are those that it spells. -/
theorem scan (h : Spells tokens text) : Token.scan text = some tokens := h.scanFrom []

/-- The blanks of a text can be left out. -/
lemma flatMap_chars (h : Spells tokens text) : Spells tokens (tokens.flatMap Token.chars) := by
  induction h with
  | nil => exact nil
  | blank _ _ ih => exact ih
  | mark hmark _ ih => exact mark hmark ih
  | scalar hplain hmark _ ih => exact scalar hplain hmark ih

end Spells

end Intcode.Json
