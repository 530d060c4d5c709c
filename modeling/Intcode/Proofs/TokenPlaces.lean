import Intcode.Proofs.ScanErrors

/-!
# Tokens and the text they come from

Cutting a text into tokens loses nothing of it but the blanks: the texts of the tokens, one after
the other, are the text without them (`Token.Cuts.lexemes_eq`).  Every token is found again where
its place says, between the tokens before it and those behind it (`Token.Cuts.exists_split`).  It is
found nowhere else, since a text never comes to the same place twice: each character leads to a
later place (`Place.precedes_afterAll`, `Place.eq_of_behind_eq`).
-/

namespace Intcode

/-! ## The order of places -/

namespace Place

variable {p q r : Place}

/-- A place comes before another one: its line is above, or it is in the same line and further to
the left. -/
def Precedes (p q : Place) : Prop := p.line < q.line ∨ p.line = q.line ∧ p.col < q.col

lemma Precedes.trans (h : p.Precedes q) (h' : q.Precedes r) : p.Precedes r := by
  unfold Precedes at *
  omega

lemma not_precedes_self (p : Place) : ¬ p.Precedes p := by
  unfold Precedes
  omega

lemma precedes_after (p : Place) (c : Char) : p.Precedes (p.after c) := by
  have hbytes := c.utf8Size_pos
  unfold Precedes after
  split
  · exact Or.inl (Nat.lt_succ_self _)
  · exact Or.inr ⟨rfl, Nat.lt_add_of_pos_right hbytes⟩

/-- Going on in a text leads to a later place. -/
lemma precedes_afterAll {s : List Char} (h : s ≠ []) (p : Place) : p.Precedes (p.afterAll s) := by
  induction s generalizing p with
  | nil => exact absurd rfl h
  | cons c s ih =>
    change p.Precedes ((p.after c).afterAll s)
    cases s with
    | nil => exact precedes_after p c
    | cons next s => exact (precedes_after p c).trans (ih (List.cons_ne_nil _ _) _)

/-- A place tells how much of the text is before it. -/
lemma eq_of_behind_eq {before after before' after' : List Char}
    (htext : before ++ after = before' ++ after') (hplace : behind before = behind before') :
    before = before' := by
  have hpiece {s piece : List Char} (h : behind s = behind (s ++ piece)) : piece = [] := by
    by_contra hne
    rw [← afterAll_start, ← afterAll_start, afterAll_append] at h
    have hlater := precedes_afterAll hne (start.afterAll s)
    rw [← h] at hlater
    exact not_precedes_self _ hlater
  rcases List.append_eq_append_iff.1 htext with ⟨piece, rfl, _⟩ | ⟨piece, rfl, _⟩
  · rw [hpiece hplace, List.append_nil]
  · rw [hpiece hplace.symm, List.append_nil]

end Place

/-! ## What the tokens keep of the text -/

namespace Token

variable {p : Place} {s : List Char} {tokens earlier later : List Token} {token : Token}

/-- The texts of tokens, one after the other. -/
def lexemes (tokens : List Token) : List Char := tokens.flatMap Token.lexeme

/-- A text without its blanks. -/
def withoutBlanks (s : List Char) : List Char := s.filter fun c => !Text.isBlank c

lemma withoutBlanks_append (s more : List Char) :
    withoutBlanks (s ++ more) = withoutBlanks s ++ withoutBlanks more := List.filter_append ..

/-- There are no blanks in a numeral. -/
lemma withoutBlanks_of_isNumeral {lexeme : List Char} {n : Int}
    (h : Decimal.IsNumeral lexeme n) : withoutBlanks lexeme = lexeme := by
  refine List.filter_eq_self.2 fun c hc => ?_
  rcases h.mem_cases hc with hdigit | rfl | rfl
  · rw [isBlank_eq_false_of_isDigit hdigit]
    rfl
  · decide
  · decide

/-- The tokens of a text keep all of it but the blanks. -/
lemma Cuts.lexemes_eq (h : Cuts p s tokens) : lexemes tokens = withoutBlanks s := by
  induction h with
  | nil p => rfl
  | @blank p c s tokens hblank _ ih =>
    rw [ih, withoutBlanks, withoutBlanks, List.filter_cons_of_neg (by simp [hblank])]
  | @comma p s tokens _ ih =>
    change ',' :: lexemes tokens = _
    rw [ih, withoutBlanks, withoutBlanks, List.filter_cons_of_pos (by decide)]
  | @int p lexeme s n tokens hn _ _ ih =>
    change lexeme ++ lexemes tokens = _
    rw [ih, withoutBlanks_append, withoutBlanks_of_isNumeral hn]

/-! ## Tokens in the text -/

lemma EndsNumeral.of_append {before after : List Char} (h : EndsNumeral (before ++ after)) :
    EndsNumeral before := by
  cases before with
  | nil => simp [EndsNumeral]
  | cons c before => exact h

/-- A token stands in the text at its place, as long as it can be; the text before it is cut into
the tokens before it, and the text behind it into those behind it. -/
lemma Cuts.exists_split (h : Cuts p s tokens) (htokens : tokens = earlier ++ token :: later) :
    ∃ before after, s = before ++ (token.lexeme ++ after) ∧ token.place = p.afterAll before ∧
      (token.kind = .int → EndsNumeral after) ∧ Cuts p before earlier ∧
        Cuts (token.place.afterAll token.lexeme) after later := by
  induction h generalizing earlier with
  | nil p => simp at htokens
  | @blank p c s tokens hblank _ ih =>
    obtain ⟨before, after, rfl, hplace, hends, hbefore, hafter⟩ := ih htokens
    exact ⟨c :: before, after, rfl, hplace, hends, .blank hblank hbefore, hafter⟩
  | @comma p s tokens hcuts ih =>
    cases earlier with
    | nil =>
      cases htokens
      exact ⟨[], s, rfl, rfl, (nomatch ·), .nil p, hcuts⟩
    | cons first earlier =>
      cases htokens
      obtain ⟨before, after, rfl, hplace, hends, hbefore, hafter⟩ := ih rfl
      exact ⟨',' :: before, after, rfl, hplace, hends, .comma hbefore, hafter⟩
  | @int p lexeme s n tokens hn hends hcuts ih =>
    cases earlier with
    | nil =>
      cases htokens
      exact ⟨[], s, rfl, rfl, fun _ => hends, .nil p, hcuts⟩
    | cons first earlier =>
      cases htokens
      obtain ⟨before, after, rfl, hplace, hends', hbefore, hafter⟩ := ih rfl
      refine ⟨lexeme ++ before, after, (List.append_assoc ..).symm, ?_, hends',
        .int hn hends.of_append hbefore, hafter⟩
      rw [hplace, Place.afterAll_append]

/-- The places of tokens come one after the other. -/
lemma Cuts.pairwise_precedes (h : Cuts p s tokens) :
    tokens.Pairwise fun token next => token.place.Precedes next.place := by
  induction h with
  | nil p => exact .nil
  | blank _ _ ih => exact ih
  | @comma p s tokens hcuts ih =>
    refine .cons (fun next hmem => ?_) ih
    obtain ⟨_, before, _, _, hplace⟩ := hcuts.exists_place hmem
    rw [hplace]
    exact Place.precedes_afterAll (List.cons_ne_nil ',' before) p
  | @int p lexeme s n tokens hn _ hcuts ih =>
    refine .cons (fun next hmem => ?_) ih
    obtain ⟨_, before, _, _, hplace⟩ := hcuts.exists_place hmem
    obtain ⟨c, rest, rfl, _⟩ := hn.exists_eq_cons
    rw [hplace, ← Place.afterAll_append]
    exact Place.precedes_afterAll (List.cons_ne_nil c (rest ++ before)) p

/-- A token of a text, between the tokens before it and those behind it, splits the text. -/
structure Splits (token : Token) (s : List Char) (earlier later : List Token)
    (before after : List Char) : Prop where
  /-- The token is the piece of the text between what is before it and what is behind it. -/
  text : s = before ++ (token.lexeme ++ after)
  /-- What is before it is, apart from blanks, what the tokens before it are made of. -/
  earlier : lexemes earlier = withoutBlanks before
  /-- What is behind it is, apart from blanks, what the tokens behind it are made of. -/
  later : lexemes later = withoutBlanks after
  /-- No digit follows an integer. -/
  longest : token.kind = .int → ∀ c ∈ after.head?, c.isDigit = false
  /-- The line is one and the number of line feeds before the token. -/
  line : token.place.line = 1 + before.count '\n'
  /-- The column is one and the number of bytes behind the last line feed before the token. -/
  col : token.place.col = 1 + byteLength (before.rtakeWhile fun c => c ≠ '\n')
  /-- Nothing but the token begins at its place. -/
  only : ∀ before' after', s = before' ++ after' → Place.behind before' = token.place →
    before' = before ∧ token.lexeme <+: after'

/-- The tokens of a text split it. -/
lemma Cuts.exists_splits (h : Cuts .start s tokens)
    (htokens : tokens = earlier ++ token :: later) :
    ∃ before after, token.Splits s earlier later before after := by
  obtain ⟨before, after, htext, hplace, hends, hbefore, hafter⟩ := h.exists_split htokens
  rw [Place.afterAll_start] at hplace
  refine ⟨before, after, htext, hbefore.lexemes_eq, hafter.lexemes_eq, hends, ?_, ?_, ?_⟩
  · rw [hplace]
    rfl
  · rw [hplace]
    rfl
  · intro before' after' htext' hplace'
    have hsame : before' = before :=
      Place.eq_of_behind_eq (htext'.symm.trans htext) (hplace'.trans hplace)
    rw [htext', hsame, List.append_cancel_left_eq] at htext
    exact ⟨hsame, after, htext.symm⟩

/-- Scanning is lossless and tells where each token is.  If it succeeds, the texts of the tokens are
together the text without its blanks; every token is a comma, or digits with a sign before them or
not; each of them splits the text at its place, and no digit follows an integer; and the places come
one after the other. -/
theorem scan_lossless (h : scan s = .ok tokens) :
    lexemes tokens = (s.filter fun c => !Text.isBlank c) ∧
      (∀ token ∈ tokens, token.IsSpelled) ∧
      (∀ earlier token later, tokens = earlier ++ token :: later →
        ∃ before after, token.Splits s earlier later before after) ∧
      tokens.Pairwise fun token next => token.place.Precedes next.place := by
  have hcuts := scan_eq_ok_iff.1 h
  exact ⟨hcuts.lexemes_eq, fun token hmem => (hcuts.exists_place hmem).1,
    fun _ _ _ htokens => hcuts.exists_splits htokens, hcuts.pairwise_precedes⟩

/-- A numeral, a line break, and behind a blank two numerals without a comma between them. -/
def scattered : List Char := ['7', ',', '\r', '\n', ' ', '1', '2', '-', '3']

/-- The tokens of two lines with blanks between them. -/
theorem scan_lossless_scattered :
    scan scattered = .ok [⟨.int, ['7'], ⟨1, 1⟩⟩, ⟨.comma, [','], ⟨1, 2⟩⟩,
        ⟨.int, ['1', '2'], ⟨2, 2⟩⟩, ⟨.int, ['-', '3'], ⟨2, 4⟩⟩] ∧
      (scattered.filter fun c => !Text.isBlank c) = ['7', ',', '1', '2', '-', '3'] ∧
      ∃ before after, Splits ⟨.int, ['1', '2'], ⟨2, 2⟩⟩ scattered
        [⟨.int, ['7'], ⟨1, 1⟩⟩, ⟨.comma, [','], ⟨1, 2⟩⟩] [⟨.int, ['-', '3'], ⟨2, 4⟩⟩]
        before after := by
  have hscan : scan scattered = .ok [⟨.int, ['7'], ⟨1, 1⟩⟩, ⟨.comma, [','], ⟨1, 2⟩⟩,
      ⟨.int, ['1', '2'], ⟨2, 2⟩⟩, ⟨.int, ['-', '3'], ⟨2, 4⟩⟩] := by
    decide +kernel
  obtain ⟨hlexemes, _, hsplits, _⟩ := scan_lossless hscan
  exact ⟨hscan, hlexemes.symm, hsplits [_, _] _ [_] rfl⟩

end Token

end Intcode
