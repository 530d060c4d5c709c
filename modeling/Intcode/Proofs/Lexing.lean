import Intcode.Token
import Intcode.Word
import Mathlib.Data.List.TakeWhile

/-!
# Numerals and tokens

What a program text is made of, told without an algorithm.  A *numeral* is an optional sign with
one or more digits after it (`Decimal.IsNumeral`), and a text *is cut* into tokens if it is made of
numerals and commas, with blanks between them or not, where no digit follows a numeral
(`Token.Cuts`).  Reading a number finds exactly the numerals (`Decimal.readInt?_eq_some_iff`), and
scanning succeeds with exactly the tokens that the text is cut into (`Token.scan_eq_ok_iff`); so
there is one way to cut a text at most.
-/

namespace Intcode

/-! ## Numerals -/

namespace Decimal

/-- A run of ASCII digits, at least one. -/
structure IsRun (digits : List Char) : Prop where
  ne_nil : digits ≠ []
  isDigit : ∀ c ∈ digits, c.isDigit = true

/-- A text is a numeral if it is a run of digits with at most one sign before it; it denotes the
decimal value of the digits, negated after a minus sign. -/
inductive IsNumeral : List Char → Int → Prop where
  | unsigned {digits : List Char} :
      IsRun digits → IsNumeral digits (Nat.ofDigitChars 10 digits 0)
  | plus {digits : List Char} :
      IsRun digits → IsNumeral ('+' :: digits) (Nat.ofDigitChars 10 digits 0)
  | minus {digits : List Char} :
      IsRun digits → IsNumeral ('-' :: digits) (-(Nat.ofDigitChars 10 digits 0 : Nat))

lemma readNat?_eq_some_iff {digits : List Char} {n : Nat} :
    readNat? digits = some n ↔ IsRun digits ∧ Nat.ofDigitChars 10 digits 0 = n := by
  have hrun : (!digits.isEmpty && digits.all Char.isDigit) = true ↔ IsRun digits := by
    rw [Bool.and_eq_true, Bool.not_eq_true', List.isEmpty_eq_false_iff, List.all_eq_true]
    exact ⟨fun h => ⟨h.1, h.2⟩, fun h => ⟨h.1, h.2⟩⟩
  rw [readNat?, Option.ite_none_right_eq_some, hrun, Option.some.injEq]

/-- Reading a number finds the numerals. -/
theorem readInt?_eq_some_iff {s : List Char} {n : Int} :
    readInt? s = some n ↔ IsNumeral s n := by
  constructor
  · intro h
    unfold readInt? at h
    split at h
    all_goals
      simp only [Option.map_eq_some_iff, Option.bind_eq_bind, Option.bind_eq_some_iff,
        Option.pure_def, Option.some.injEq, readNat?_eq_some_iff] at h
      obtain ⟨_, ⟨_, ⟨hrun, rfl⟩, rfl⟩, rfl⟩ := h
    · exact .minus hrun
    · exact .plus hrun
    · exact .unsigned hrun
  · rintro (hrun | hrun | hrun)
    case unsigned =>
      have hread := readNat?_eq_some_iff.2 ⟨hrun, rfl⟩
      unfold readInt?
      -- A run of digits does not begin with a sign.
      split
      · exact absurd (hrun.isDigit '-' (by simp)) (by decide)
      · exact absurd (hrun.isDigit '+' (by simp)) (by decide)
      · rw [hread]
        rfl
    all_goals
      rw [readInt?, readNat?_eq_some_iff.2 ⟨hrun, rfl⟩]
      rfl

end Decimal

/-- The words are read from the numerals of integers in range. -/
theorem Word.ofChars?_eq_some_iff {s : List Char} {w : Word} :
    ofChars? s = some w ↔ Decimal.IsNumeral s w.toInt := by
  rw [ofChars?, Option.bind_eq_some_iff]
  constructor
  · rintro ⟨n, hread, hword⟩
    rw [ofInt?_eq_some_iff.1 hword]
    exact Decimal.readInt?_eq_some_iff.1 hread
  · intro h
    exact ⟨w.toInt, Decimal.readInt?_eq_some_iff.2 h, ofInt?_toInt w⟩

lemma isBlank_eq_false_of_isDigit {c : Char} (h : c.isDigit = true) : Text.isBlank c = false := by
  rw [Bool.eq_false_iff]
  intro hblank
  simp only [Text.isBlank, Bool.or_eq_true, decide_eq_true_eq] at hblank
  rcases hblank with ((rfl | rfl) | rfl) | rfl <;> exact absurd h (by decide)

lemma isDigit_eq_false_of_isBlank {c : Char} (h : Text.isBlank c = true) : c.isDigit = false := by
  rw [Bool.eq_false_iff]
  intro hdigit
  rw [isBlank_eq_false_of_isDigit hdigit] at h
  cases h

namespace Decimal

namespace IsNumeral

variable {s : List Char} {n : Int}

/-- A numeral does not begin with a blank. -/
lemma exists_eq_cons (h : IsNumeral s n) : ∃ c rest, s = c :: rest ∧ Text.isBlank c = false := by
  cases h with
  | unsigned hrun =>
    obtain ⟨c, rest, rfl⟩ := List.exists_cons_of_ne_nil hrun.ne_nil
    exact ⟨c, rest, rfl, isBlank_eq_false_of_isDigit (hrun.isDigit c (by simp))⟩
  | plus => exact ⟨'+', _, rfl, by decide⟩
  | minus => exact ⟨'-', _, rfl, by decide⟩

/-- A numeral ends with a digit. -/
lemma exists_eq_concat (h : IsNumeral s n) : ∃ init c, s = init ++ [c] ∧ c.isDigit = true := by
  have hlast {digits : List Char} (hrun : IsRun digits) :
      ∃ init c, digits = init ++ [c] ∧ c.isDigit = true :=
    ⟨_, _, (List.dropLast_concat_getLast hrun.ne_nil).symm,
      hrun.isDigit _ (List.getLast_mem hrun.ne_nil)⟩
  cases h with
  | unsigned hrun => exact hlast hrun
  | plus hrun | minus hrun =>
    obtain ⟨init, c, hdigits, hc⟩ := hlast hrun
    exact ⟨_ :: init, c, by rw [hdigits, List.cons_append], hc⟩

/-- A numeral is made of digits and signs. -/
lemma mem_cases (h : IsNumeral s n) {c : Char} (hc : c ∈ s) :
    c.isDigit = true ∨ c = '+' ∨ c = '-' := by
  cases h with
  | unsigned hrun => exact Or.inl (hrun.isDigit c hc)
  | plus hrun =>
    rcases List.mem_cons.1 hc with rfl | hdigit
    · exact Or.inr (Or.inl rfl)
    · exact Or.inl (hrun.isDigit c hdigit)
  | minus hrun =>
    rcases List.mem_cons.1 hc with rfl | hdigit
    · exact Or.inr (Or.inr rfl)
    · exact Or.inl (hrun.isDigit c hdigit)

lemma not_mem_comma (h : IsNumeral s n) : ',' ∉ s := fun hmem =>
  absurd (h.mem_cases hmem) (by decide)

end IsNumeral

end Decimal

namespace Token

/-! ## The first token -/

/-- A text goes on after a numeral with a character that is no digit. -/
def EndsNumeral (rest : List Char) : Prop := ∀ c ∈ rest.head?, c.isDigit = false

lemma endsNumeral_dropWhile (s : List Char) : EndsNumeral (s.dropWhile Char.isDigit) := by
  intro c hc
  have hhead := List.head?_dropWhile_not Char.isDigit s
  rw [Option.mem_def.1 hc] at hhead
  exact hhead

/-- The numeral at the beginning of a text is its first token, if it is not part of a longer
one. -/
lemma leading?_append {lexeme rest : List Char} {n : Int} (hnumeral : Decimal.IsNumeral lexeme n)
    (hrest : EndsNumeral rest) : leading? (lexeme ++ rest) = some (.int, lexeme, rest) := by
  cases hnumeral with
  | unsigned hrun =>
    obtain ⟨c, digits, rfl⟩ := List.exists_cons_of_ne_nil hrun.ne_nil
    obtain ⟨hc, hdigits⟩ := List.forall_mem_cons.1 hrun.isDigit
    obtain ⟨htake, hdrop⟩ := Text.takeWhile_dropWhile_append hdigits hrest
    have hcomma : c ≠ ',' := by
      rintro rfl
      exact absurd hc (by decide)
    simp only [List.cons_append, leading?, hcomma, hc, htake, hdrop, if_true, if_false]
  | plus hrun | minus hrun =>
    obtain ⟨htake, hdrop⟩ := Text.takeWhile_dropWhile_append hrun.isDigit hrest
    have hne := List.isEmpty_eq_false_iff.2 hrun.ne_nil
    simp only [List.cons_append, leading?, htake, hdrop, hne]
    rfl

/-- The first token of a text is a comma, or else a numeral as long as possible. -/
theorem leading?_eq_some_iff {s lexeme rest : List Char} {kind : TokenKind} :
    leading? s = some (kind, lexeme, rest) ↔
      (kind = .comma ∧ lexeme = [','] ∧ s = ',' :: rest) ∨
        kind = .int ∧ (∃ n, Decimal.IsNumeral lexeme n) ∧ EndsNumeral rest ∧
          s = lexeme ++ rest := by
  constructor
  · intro h
    have happend := append_of_leading? h
    cases s with
    | nil => simp [leading?] at h
    | cons c s =>
      simp only [leading?] at h
      split_ifs at h with hcomma hdigit hsign
      · cases h
        exact .inl ⟨rfl, by rw [hcomma], by rw [hcomma]⟩
      · cases h
        refine .inr ⟨rfl, ⟨_, .unsigned ⟨List.cons_ne_nil _ _, ?_⟩⟩, endsNumeral_dropWhile s,
          happend⟩
        exact List.forall_mem_cons.2 ⟨hdigit, fun _ => List.mem_takeWhile_imp⟩
      · cases h
        simp only [Bool.and_eq_true, Bool.or_eq_true, decide_eq_true_eq, Bool.not_eq_true',
          List.isEmpty_eq_false_iff] at hsign
        have hrun : Decimal.IsRun (s.takeWhile Char.isDigit) :=
          ⟨hsign.2, fun _ => List.mem_takeWhile_imp⟩
        refine .inr ⟨rfl, ?_, endsNumeral_dropWhile s, happend⟩
        rcases hsign.1 with rfl | rfl
        · exact ⟨_, .plus hrun⟩
        · exact ⟨_, .minus hrun⟩
  · rintro (⟨rfl, rfl, rfl⟩ | ⟨rfl, ⟨n, hnumeral⟩, hrest, rfl⟩)
    · rfl
    · exact leading?_append hnumeral hrest

/-! ## All tokens -/

/-- The text that stands at a place is cut into these tokens. -/
inductive Cuts : Place → List Char → List Token → Prop where
  | nil (p : Place) : Cuts p [] []
  | blank {p : Place} {c : Char} {s : List Char} {tokens : List Token} :
      Text.isBlank c = true → Cuts (p.after c) s tokens → Cuts p (c :: s) tokens
  | comma {p : Place} {s : List Char} {tokens : List Token} :
      Cuts (p.after ',') s tokens → Cuts p (',' :: s) (⟨.comma, [','], p⟩ :: tokens)
  | int {p : Place} {lexeme s : List Char} {n : Int} {tokens : List Token} :
      Decimal.IsNumeral lexeme n → EndsNumeral s → Cuts (p.afterAll lexeme) s tokens →
        Cuts p (lexeme ++ s) (⟨.int, lexeme, p⟩ :: tokens)

lemma Cuts.blanks {blanks s : List Char} {tokens : List Token}
    (hblanks : ∀ c ∈ blanks, Text.isBlank c = true) {p : Place}
    (h : Cuts (p.afterAll blanks) s tokens) : Cuts p (blanks ++ s) tokens := by
  induction blanks generalizing p with
  | nil => exact h
  | cons c blanks ih =>
    obtain ⟨hc, hblanks⟩ := List.forall_mem_cons.1 hblanks
    exact .blank hc (ih hblanks h)

/-- Scanning goes on behind the first token. -/
lemma scanFrom_of_leading? {s lexeme rest before : List Char} {kind : TokenKind} {p : Place}
    (hblank : ∀ c ∈ s.head?, Text.isBlank c = false)
    (hleading : leading? s = some (kind, lexeme, rest)) :
    scanFrom before p s =
      (scanFrom (lexeme.reverse ++ before) (p.afterAll lexeme) rest).map
        (⟨kind, lexeme, p⟩ :: ·) := by
  cases s with
  | nil => simp [leading?] at hleading
  | cons c s =>
    rw [scanFrom, if_neg (by simp [hblank c rfl])]
    split
    next heq =>
      rw [heq] at hleading
      cases hleading
    next heq =>
      rw [heq] at hleading
      cases hleading
      rfl

lemma cuts_of_scanFrom {before s : List Char} {p : Place} {tokens : List Token}
    (h : scanFrom before p s = .ok tokens) : Cuts p s tokens := by
  induction before, p, s using scanFrom.induct generalizing tokens with
  | case1 before p =>
    rw [scanFrom] at h
    cases h
    exact .nil p
  | case2 before p c s hblank ih =>
    rw [scanFrom, if_pos hblank] at h
    exact .blank hblank (ih h)
  | case3 before p c s hblank hleading =>
    rw [scanFrom, if_neg hblank] at h
    split at h
    · cases h
    next heq =>
      rw [heq] at hleading
      cases hleading
  | case4 before p c s hblank kind lexeme rest hleading ih =>
    rw [scanFrom_of_leading? (by simpa using hblank) hleading] at h
    cases hrest : scanFrom (lexeme.reverse ++ before) (p.afterAll lexeme) rest with
    | error e =>
      rw [hrest] at h
      cases h
    | ok tokens =>
      rw [hrest] at h
      cases h
      have hcuts := ih hrest
      rcases leading?_eq_some_iff.1 hleading with ⟨rfl, rfl, hs⟩ | ⟨rfl, ⟨n, hn⟩, hends, hs⟩
      · rw [hs]
        exact .comma hcuts
      · rw [hs]
        exact .int hn hends hcuts

lemma Cuts.scanFrom {p : Place} {s : List Char} {tokens : List Token} (h : Cuts p s tokens)
    (before : List Char) : scanFrom before p s = .ok tokens := by
  induction h generalizing before with
  | nil p => rw [Token.scanFrom]
  | blank hblank _ ih => rw [Token.scanFrom, if_pos hblank, ih]
  | comma _ ih =>
    have hleading {rest : List Char} : leading? (',' :: rest) = some (.comma, [','], rest) := rfl
    rw [scanFrom_of_leading? (by simp; decide) hleading]
    exact congrArg (Except.map _) (ih _)
  | int hn hends _ ih =>
    obtain ⟨c, rest, hlexeme, hblank⟩ := hn.exists_eq_cons
    rw [scanFrom_of_leading? (by simpa [hlexeme] using hblank) (leading?_append hn hends), ih]
    rfl

/-- Scanning succeeds with the tokens that the text is cut into. -/
theorem scan_eq_ok_iff {s : List Char} {tokens : List Token} :
    scan s = .ok tokens ↔ Cuts .start s tokens :=
  ⟨cuts_of_scanFrom, fun h => h.scanFrom []⟩

end Token

end Intcode
