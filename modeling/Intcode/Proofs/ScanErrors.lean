import Intcode.Proofs.Lexing
import Mathlib.Data.List.DropRight
import Mathlib.Data.List.Induction

/-!
# Places and words in a program text

A scanner keeps its place as it goes on; here a place is told from the text in front of it, by
counting line feeds and the bytes behind the last one (`Place.behind`), and the two agree
(`Place.afterAll_start`).  In the same way the tokens that a text is cut into are found again in the
text (`Token.Cuts.standsIn`).

Scanning fails if it is stuck at a character at which no token starts (`Token.Stuck`).  What it
reports then is the word around that character, at the place where the word begins
(`Token.scan_eq_error_iff`).  The word names the character, unless the character is itself one of
those that delimit words: white space that is no blank (`Token.names_iff_of_scan`).
-/

namespace Intcode

/-! ## Places -/

namespace Token

lemma byteLength_append (s more : List Char) :
    byteLength (s ++ more) = byteLength s + byteLength more := by
  induction s with
  | nil => exact (Nat.zero_add _).symm
  | cons c s ih =>
    change c.utf8Size + byteLength (s ++ more) = c.utf8Size + byteLength s + byteLength more
    rw [ih, Nat.add_assoc]

end Token

namespace Place

open Token

/-- The place behind a text: one line for each line feed, and one column for each byte behind the
last line feed. -/
def behind (before : List Char) : Place where
  line := 1 + before.count '\n'
  col := 1 + byteLength (before.rtakeWhile fun c => c ≠ '\n')

lemma afterAll_append (p : Place) (s more : List Char) :
    p.afterAll (s ++ more) = (p.afterAll s).afterAll more := List.foldl_append

lemma behind_concat (before : List Char) (c : Char) :
    behind (before ++ [c]) = (behind before).after c := by
  unfold behind after
  by_cases hnewline : c = '\n'
  · have hlast : (before ++ [c]).rtakeWhile (fun c => c ≠ '\n') = [] :=
      List.rtakeWhile_concat_neg _ _ _ (by simp [hnewline])
    rw [if_pos hnewline, hlast, hnewline, List.count_append, List.count_singleton_self,
      Nat.add_assoc]
    rfl
  · have hlast : (before ++ [c]).rtakeWhile (fun c => c ≠ '\n') =
        before.rtakeWhile (fun c => c ≠ '\n') ++ [c] :=
      List.rtakeWhile_concat_pos _ _ _ (by simp [hnewline])
    have hcount : [c].count '\n' = 0 :=
      List.count_eq_zero_of_not_mem fun hmem => hnewline (List.mem_singleton.1 hmem).symm
    rw [if_neg hnewline, hlast, byteLength_append, List.count_append, hcount, Nat.add_assoc]
    rfl

/-- Going through a text leads to the place behind it. -/
lemma afterAll_start (before : List Char) : start.afterAll before = behind before := by
  induction before using List.reverseRecOn with
  | nil => rfl
  | append_singleton before c ih =>
    rw [afterAll_append, ih, behind_concat]
    rfl

/-- Within a line only the column changes. -/
lemma afterAll_of_not_mem {s : List Char} (h : '\n' ∉ s) (p : Place) :
    p.afterAll s = ⟨p.line, p.col + byteLength s⟩ := by
  induction s generalizing p with
  | nil => rfl
  | cons c s ih =>
    obtain ⟨hc, hs⟩ := List.ne_and_not_mem_of_not_mem_cons h
    have hafter : p.after c = ⟨p.line, p.col + c.utf8Size⟩ := if_neg fun heq => hc heq.symm
    change (p.after c).afterAll s = ⟨p.line, p.col + (c.utf8Size + byteLength s)⟩
    rw [ih hs, hafter, Nat.add_assoc]

end Place

namespace Token

variable {p : Place} {s rest before after head tail : List Char} {tokens : List Token}
  {token : Token} {error : ScanError}

/-- The text of a token goes with its kind. -/
def IsSpelled (token : Token) : Prop :=
  match token.kind with
  | .comma => token.lexeme = [',']
  | .int => ∃ n, Decimal.IsNumeral token.lexeme n

/-- A token stands in the text at its place. -/
lemma Cuts.exists_place (h : Cuts p s tokens) (hmem : token ∈ tokens) :
    token.IsSpelled ∧
      ∃ before after, s = before ++ (token.lexeme ++ after) ∧ token.place = p.afterAll before := by
  induction h with
  | nil p => cases hmem
  | @blank p c s tokens _ _ ih =>
    obtain ⟨hspelled, before, after, rfl, hplace⟩ := ih hmem
    exact ⟨hspelled, c :: before, after, rfl, hplace⟩
  | @comma p s tokens _ ih =>
    rcases List.mem_cons.1 hmem with rfl | hlater
    · exact ⟨rfl, [], s, rfl, rfl⟩
    · obtain ⟨hspelled, before, after, rfl, hplace⟩ := ih hlater
      exact ⟨hspelled, ',' :: before, after, rfl, hplace⟩
  | @int p lexeme s n tokens hn _ _ ih =>
    rcases List.mem_cons.1 hmem with rfl | hlater
    · exact ⟨⟨n, hn⟩, [], s, rfl, rfl⟩
    · obtain ⟨hspelled, before, after, rfl, hplace⟩ := ih hlater
      refine ⟨hspelled, lexeme ++ before, after, (List.append_assoc ..).symm, ?_⟩
      rw [hplace, Place.afterAll_append]

/-- The token is a piece of the text, and its place is where the piece begins. -/
def StandsIn (token : Token) (s : List Char) : Prop :=
  ∃ before after, s = before ++ (token.lexeme ++ after) ∧ token.place = .behind before

/-- The tokens of a text stand in it. -/
lemma Cuts.standsIn (h : Cuts .start s tokens) (hmem : token ∈ tokens) : token.StandsIn s := by
  obtain ⟨_, before, after, htext, hplace⟩ := h.exists_place hmem
  rw [Place.afterAll_start] at hplace
  exact ⟨before, after, htext, hplace⟩

/-! ## Words -/

/-- A word of a text: no delimiter is in it, and on both sides there is one, or the text ends. -/
structure IsWord (before word after : List Char) : Prop where
  /-- No delimiter is in the word. -/
  plain : ∀ c ∈ word, isDelimiter c = false
  /-- Before the word there is a delimiter or nothing. -/
  before : ∀ c ∈ before.getLast?, isDelimiter c = true
  /-- Behind the word there is a delimiter or nothing. -/
  after : ∀ c ∈ after.head?, isDelimiter c = true

/-- There is a word around every place, if only an empty one. -/
lemma exists_isWord (s rest : List Char) :
    ∃ before head tail after, s = before ++ head ∧ rest = tail ++ after ∧
      IsWord before (head ++ tail) after := by
  refine ⟨s.rdropWhile fun c => !isDelimiter c, s.rtakeWhile fun c => !isDelimiter c,
    rest.takeWhile fun c => !isDelimiter c, rest.dropWhile fun c => !isDelimiter c,
    (List.rdropWhile_append_rtakeWhile ..).symm, List.takeWhile_append_dropWhile.symm, ?_, ?_, ?_⟩
  · intro c hmem
    rcases List.mem_append.1 hmem with hhead | htail
    · simpa using List.mem_rtakeWhile_imp hhead
    · simpa using List.mem_takeWhile_imp htail
  · intro c hc
    obtain ⟨hne, rfl⟩ := List.mem_getLast?_eq_getLast hc
    simpa using List.rdropWhile_last_not _ s hne
  · intro c hc
    have hhead := List.head?_dropWhile_not (fun c => !isDelimiter c) rest
    rw [Option.mem_def.1 hc] at hhead
    simpa using hhead

/-- The word around a place is the one that reaches over it, and it is reported at the place where
it begins. -/
lemma wordAround_eq (h : IsWord before (head ++ tail) after) :
    wordAround (before ++ head).reverse (.behind (before ++ head)) (tail ++ after) =
      ⟨head ++ tail, .behind before⟩ := by
  have hhead : ((before ++ head).reverse.takeWhile fun c => !isDelimiter c) = head.reverse := by
    rw [List.reverse_append]
    refine (Text.takeWhile_dropWhile_append (fun c hmem => ?_) fun c hc => ?_).1
    · simpa using h.plain c (List.mem_append_left _ (List.mem_reverse.1 hmem))
    · rw [List.head?_reverse] at hc
      simpa using h.before c hc
  have htail : ((tail ++ after).takeWhile fun c => !isDelimiter c) = tail := by
    refine (Text.takeWhile_dropWhile_append (fun c hmem => ?_) fun c hc => ?_).1
    · simpa using h.plain c (List.mem_append_right _ hmem)
    · simpa using h.after c hc
  have hline : '\n' ∉ head := fun hmem =>
    absurd (h.plain '\n' (List.mem_append_left _ hmem)) (by decide)
  have hplace : Place.behind (before ++ head) =
      ⟨(Place.behind before).line, (Place.behind before).col + byteLength head⟩ := by
    rw [← Place.afterAll_start, Place.afterAll_append, Place.afterAll_start,
      Place.afterAll_of_not_mem hline]
  simp only [wordAround, hhead, htail, List.reverse_reverse, hplace, Nat.add_sub_cancel]

/-! ## Characters at which no token starts -/

/-- No token starts at the first character of the text, and it is no blank either. -/
structure Stuck (s : List Char) : Prop where
  /-- There is a character, and it is neither a blank nor a comma. -/
  exists_cons : ∃ c rest, s = c :: rest ∧ Text.isBlank c = false ∧ c ≠ ','
  /-- No numeral starts there. -/
  not_prefix : ∀ lexeme n, Decimal.IsNumeral lexeme n → ¬ lexeme <+: s

/-- A numeral with more digits behind it is a numeral. -/
lemma exists_isNumeral_append {lexeme more : List Char} {n : Int}
    (h : Decimal.IsNumeral lexeme n) (hmore : ∀ c ∈ more, c.isDigit = true) :
    ∃ n', Decimal.IsNumeral (lexeme ++ more) n' := by
  have hrun {digits : List Char} (hrun : Decimal.IsRun digits) : Decimal.IsRun (digits ++ more) :=
    ⟨List.append_ne_nil_of_left_ne_nil hrun.ne_nil more,
      List.forall_mem_append.2 ⟨hrun.isDigit, hmore⟩⟩
  cases h with
  | unsigned hdigits => exact ⟨_, .unsigned (hrun hdigits)⟩
  | plus hdigits => exact ⟨_, .plus (hrun hdigits)⟩
  | minus hdigits => exact ⟨_, .minus (hrun hdigits)⟩

/-- If a numeral starts a text, so does a token. -/
lemma leading?_ne_none {lexeme : List Char} {n : Int} (h : Decimal.IsNumeral lexeme n)
    (hstarts : lexeme <+: s) : leading? s ≠ none := by
  obtain ⟨rest, rfl⟩ := hstarts
  -- The numeral may go on; with all the digits behind it, it is as long as possible.
  obtain ⟨n', hlonger⟩ :=
    exists_isNumeral_append h fun c => List.mem_takeWhile_imp (l := rest)
  have hleading := leading?_append hlonger (endsNumeral_dropWhile rest)
  rw [List.append_assoc, List.takeWhile_append_dropWhile] at hleading
  rw [hleading]
  exact Option.some_ne_none _

lemma Stuck.leading?_eq_none (h : Stuck s) : leading? s = none := by
  by_contra hsome
  obtain ⟨⟨kind, lexeme, rest⟩, hleading⟩ := Option.ne_none_iff_exists'.1 hsome
  obtain ⟨c, more, hs, _, hcomma⟩ := h.exists_cons
  rcases leading?_eq_some_iff.1 hleading with ⟨_, _, hs'⟩ | ⟨_, ⟨n, hn⟩, _, hs'⟩
  · rw [hs] at hs'
    exact hcomma (List.cons.inj hs').1
  · exact h.not_prefix lexeme n hn ⟨rest, hs'.symm⟩

lemma stuck_of_leading?_eq_none {c : Char} (hblank : Text.isBlank c = false)
    (h : leading? (c :: rest) = none) : Stuck (c :: rest) := by
  refine ⟨⟨c, rest, rfl, hblank, ?_⟩, fun lexeme n hn hstarts => leading?_ne_none hn hstarts h⟩
  rintro rfl
  cases h

/-- A numeral ends before a character at which no token starts. -/
lemma Stuck.endsNumeral (h : Stuck s) : EndsNumeral s := by
  intro c hc
  by_contra hdigit
  rw [Bool.not_eq_false] at hdigit
  obtain ⟨first, rest, rfl, _⟩ := h.exists_cons
  have hrun : Decimal.IsRun [first] := by
    refine ⟨List.cons_ne_nil _ _, fun c' hmem => ?_⟩
    rwa [List.mem_singleton.1 hmem, Option.some.inj hc]
  exact h.not_prefix _ _ (.unsigned hrun) ⟨rest, rfl⟩

/-- Scanning fails where it is stuck. -/
lemma Stuck.scanFrom (h : Stuck s) (before : List Char) (p : Place) :
    scanFrom before p s = .error (wordAround before p s) := by
  have hnone := h.leading?_eq_none
  obtain ⟨c, rest, rfl, hblank, _⟩ := h.exists_cons
  rw [Token.scanFrom, if_neg (by simp [hblank])]
  split
  · rfl
  next heq =>
    rw [hnone] at heq
    cases heq

/-- Scanning goes through what can be cut into tokens, and fails where it is stuck behind that. -/
lemma Cuts.scanFrom_stuck (h : Cuts p s tokens) (hstuck : Stuck rest) (before : List Char) :
    Token.scanFrom before p (s ++ rest) =
      .error (wordAround (s.reverse ++ before) (p.afterAll s) rest) := by
  induction h generalizing before with
  | nil p => exact hstuck.scanFrom before p
  | @blank p c s tokens hblank _ ih =>
    rw [List.cons_append, Token.scanFrom, if_pos hblank, ih, List.reverse_cons, List.append_assoc]
    rfl
  | @comma p s tokens _ ih =>
    have hleading : leading? (',' :: (s ++ rest)) = some (.comma, [','], s ++ rest) := rfl
    have hbehind : Token.scanFrom ([','].reverse ++ before) (p.afterAll [',']) (s ++ rest) =
        .error (wordAround (s.reverse ++ (',' :: before)) ((p.after ',').afterAll s) rest) := ih _
    rw [List.cons_append, scanFrom_of_leading? (by simp; decide) hleading, hbehind,
      List.reverse_cons, List.append_assoc]
    rfl
  | @int p lexeme s n tokens hn hends _ ih =>
    have hends' : EndsNumeral (s ++ rest) := by
      cases s with
      | nil => exact hstuck.endsNumeral
      | cons c s => exact hends
    obtain ⟨c, more, hlexeme, hblank⟩ := hn.exists_eq_cons
    have hfirst : ∀ c ∈ (lexeme ++ (s ++ rest)).head?, Text.isBlank c = false := by
      rw [hlexeme]
      rintro c ⟨⟩
      exact hblank
    rw [List.append_assoc, scanFrom_of_leading? hfirst (leading?_append hn hends'), ih,
      List.reverse_append, List.append_assoc, Place.afterAll_append]
    rfl

/-- If scanning fails, it is stuck behind something that can be cut into tokens. -/
lemma exists_stuck_of_scanFrom (h : scanFrom before p s = .error error) :
    ∃ done rest tokens, s = done ++ rest ∧ Cuts p done tokens ∧ Stuck rest := by
  induction before, p, s using scanFrom.induct with
  | case1 before p =>
    rw [scanFrom] at h
    cases h
  | case2 before p c s hblank ih =>
    rw [scanFrom, if_pos hblank] at h
    obtain ⟨done, rest, tokens, rfl, hcuts, hstuck⟩ := ih h
    exact ⟨c :: done, rest, tokens, rfl, .blank hblank hcuts, hstuck⟩
  | case3 before p c s hblank hleading =>
    exact ⟨[], c :: s, [], rfl, .nil p, stuck_of_leading?_eq_none (by simpa using hblank) hleading⟩
  | case4 before p c s hblank kind lexeme more hleading ih =>
    rw [scanFrom_of_leading? (by simpa using hblank) hleading] at h
    have hmore : scanFrom (lexeme.reverse ++ before) (p.afterAll lexeme) more = .error error := by
      rcases hscan : scanFrom (lexeme.reverse ++ before) (p.afterAll lexeme) more with
        error' | tokens
      · rw [hscan] at h
        cases h
        rfl
      · rw [hscan] at h
        cases h
    obtain ⟨done, rest, tokens, rfl, hcuts, hstuck⟩ := ih hmore
    rcases leading?_eq_some_iff.1 hleading with ⟨rfl, rfl, hs⟩ | ⟨rfl, ⟨n, hn⟩, hends, hs⟩
    · rw [hs]
      exact ⟨',' :: done, rest, _, rfl, .comma hcuts, hstuck⟩
    · have hends' : EndsNumeral done := by
        cases done with
        | nil =>
          intro c hc
          cases hc
        | cons c done => exact hends
      rw [hs, ← List.append_assoc]
      exact ⟨lexeme ++ done, rest, _, rfl, .int hn hends' hcuts, hstuck⟩

/-- Scanning fails exactly if it is stuck behind something that can be cut into tokens.  It reports
the word around the place where it is stuck. -/
theorem scan_eq_error_iff :
    scan s = .error error ↔
      ∃ before head tail after tokens, s = before ++ head ++ (tail ++ after) ∧
        Cuts .start (before ++ head) tokens ∧ Stuck (tail ++ after) ∧
          IsWord before (head ++ tail) after ∧ error = ⟨head ++ tail, .behind before⟩ := by
  have hscan {before head tail after : List Char} {tokens : List Token}
      (hcuts : Cuts .start (before ++ head) tokens) (hstuck : Stuck (tail ++ after))
      (hword : IsWord before (head ++ tail) after) :
      scan (before ++ head ++ (tail ++ after)) = .error ⟨head ++ tail, .behind before⟩ := by
    have hfails := hcuts.scanFrom_stuck hstuck []
    rwa [List.append_nil, Place.afterAll_start, wordAround_eq hword] at hfails
  constructor
  · intro h
    obtain ⟨done, rest, tokens, rfl, hcuts, hstuck⟩ := exists_stuck_of_scanFrom h
    obtain ⟨before, head, tail, after, rfl, rfl, hword⟩ := exists_isWord done rest
    refine ⟨before, head, tail, after, tokens, rfl, hcuts, hstuck, hword, ?_⟩
    rw [hscan hcuts hstuck hword] at h
    exact (Except.error.inj h).symm
  · rintro ⟨before, head, tail, after, tokens, rfl, hcuts, hstuck, hword, rfl⟩
    exact hscan hcuts hstuck hword

/-! ## What the word tells -/

/-- Scanning a text fails at a character: what stands before it can be cut into tokens, and no token
starts there. -/
structure FailsAt (s before : List Char) (c : Char) (after : List Char) : Prop where
  /-- The character stands between these parts of the text. -/
  text_eq : s = before ++ c :: after
  /-- What stands before it can be cut into tokens. -/
  cuts : ∃ tokens, Cuts .start before tokens
  /-- No token starts there. -/
  stuck : Stuck (c :: after)

end Token

/-- The word that is reported names a character of the text: it reaches over it, and it could not be
taken for a numeral. -/
structure ScanError.Names (error : ScanError) (before : List Char) (c : Char) (after : List Char) :
    Prop where
  /-- There is a word. -/
  ne_nil : error.word ≠ []
  /-- It is the piece of the text around the character. -/
  reaches : ∃ head tail, head <:+ before ∧ tail <+: after ∧ error.word = head ++ c :: tail
  /-- It is no numeral. -/
  not_isNumeral : ∀ n, ¬ Decimal.IsNumeral error.word n

namespace Token

variable {c : Char}

/-- Behind the first character of a numeral there are digits. -/
lemma isDigit_of_isNumeral_cons {first : Char} {lexeme : List Char} {n : Int}
    (h : Decimal.IsNumeral (first :: lexeme) n) : ∀ c ∈ lexeme, c.isDigit = true := by
  intro c hmem
  cases h with
  | unsigned hrun => exact hrun.isDigit c (List.mem_cons_of_mem _ hmem)
  | plus hrun | minus hrun => exact hrun.isDigit c hmem

/-- A piece of the text that reaches over a character at which no token starts is no numeral. -/
lemma Stuck.not_isNumeral (h : Stuck (c :: after)) (htail : tail <+: after) (head : List Char)
    (n : Int) : ¬ Decimal.IsNumeral (head ++ c :: tail) n := by
  intro hnumeral
  cases head with
  | nil => exact h.not_prefix _ n hnumeral ((List.prefix_cons_inj c).2 htail)
  | cons first head =>
    -- The character is a digit, and so it is a numeral itself.
    have hdigit : c.isDigit = true :=
      isDigit_of_isNumeral_cons hnumeral c (List.mem_append_right _ (List.mem_cons_self ..))
    have hends := h.endsNumeral c rfl
    rw [hdigit] at hends
    cases hends

/-- A character at which no token starts is a delimiter exactly if it is white space. -/
lemma Stuck.isDelimiter_eq (h : Stuck (c :: after)) : isDelimiter c = Text.isWhiteSpace c := by
  obtain ⟨first, rest, hfirst, _, hcomma⟩ := h.exists_cons
  obtain ⟨rfl, rfl⟩ := List.cons.inj hfirst
  unfold isDelimiter
  rw [decide_eq_false hcomma, Bool.false_or]

/-- The word runs from the last delimiter before the character to the next one from there on. -/
lemma FailsAt.word_eq (h : FailsAt s before c after) (hscan : scan s = .error error) :
    error.word = (before.rtakeWhile fun c => !isDelimiter c) ++
      (c :: after).takeWhile fun c => !isDelimiter c := by
  obtain ⟨tokens, hcuts⟩ := h.cuts
  have hfails := hcuts.scanFrom_stuck h.stuck []
  rw [List.append_nil, ← h.text_eq] at hfails
  have herror := Except.error.inj (hscan.symm.trans hfails)
  rw [herror]
  rfl

/-- If scanning fails, it does so at some character.  The reported word names this character unless
it is white space; then the word ends before it. -/
theorem names_iff_of_scan (h : scan s = .error error) :
    (∃ before c after, FailsAt s before c after) ∧
      ∀ before c after, FailsAt s before c after →
        (error.Names before c after ↔ Text.isWhiteSpace c = false) ∧
          (Text.isWhiteSpace c = true →
            error.word = before.rtakeWhile (fun c => !isDelimiter c) ∧ c ∉ error.word) := by
  constructor
  · obtain ⟨before, rest, tokens, htext, hcuts, hstuck⟩ := exists_stuck_of_scanFrom h
    obtain ⟨c, after, rfl, _, _⟩ := hstuck.exists_cons
    exact ⟨before, c, after, htext, ⟨tokens, hcuts⟩, hstuck⟩
  · intro before c after hfails
    have hword := hfails.word_eq h
    have hdelimiter := hfails.stuck.isDelimiter_eq
    have hspace (hc : Text.isWhiteSpace c = true) :
        error.word = before.rtakeWhile (fun c => !isDelimiter c) ∧ c ∉ error.word := by
      rw [List.takeWhile_cons_of_neg (by simp [hdelimiter, hc]), List.append_nil] at hword
      refine ⟨hword, fun hmem => ?_⟩
      rw [hword] at hmem
      have hplain := List.mem_rtakeWhile_imp hmem
      rw [hdelimiter, hc] at hplain
      cases hplain
    refine ⟨⟨fun hnames => ?_, fun hc => ?_⟩, hspace⟩
    · obtain ⟨head, tail, _, _, hreaches⟩ := hnames.reaches
      rw [Bool.eq_false_iff]
      intro hc
      refine (hspace hc).2 ?_
      rw [hreaches]
      exact List.mem_append_right _ (List.mem_cons_self ..)
    · rw [List.takeWhile_cons_of_pos (by simp [hdelimiter, hc])] at hword
      have htail := List.takeWhile_prefix (fun c => !isDelimiter c) (l := after)
      refine ⟨?_, ⟨_, _, List.rtakeWhile_suffix _ before, htail, hword⟩, fun n => ?_⟩
      · rw [hword]
        exact List.append_ne_nil_of_right_ne_nil _ (List.cons_ne_nil _ _)
      · rw [hword]
        exact hfails.stuck.not_isNumeral htail _ n

/-- In the third value of this text scanning fails behind two digits, and the word around that place
is reported. -/
theorem names_iff_of_scan_brokenNumeral :
    scan ['7', ',', '1', '2', 'x', '4'] = .error ⟨['1', '2', 'x', '4'], ⟨1, 3⟩⟩ ∧
      FailsAt ['7', ',', '1', '2', 'x', '4'] ['7', ',', '1', '2'] 'x' ['4'] ∧
        (⟨['1', '2', 'x', '4'], ⟨1, 3⟩⟩ : ScanError).Names ['7', ',', '1', '2'] 'x' ['4'] := by
  have hscan : scan ['7', ',', '1', '2', 'x', '4'] = .error ⟨['1', '2', 'x', '4'], ⟨1, 3⟩⟩ := by
    decide +kernel
  have hcuts : Cuts .start ['7', ',', '1', '2']
      [⟨.int, ['7'], ⟨1, 1⟩⟩, ⟨.comma, [','], ⟨1, 2⟩⟩, ⟨.int, ['1', '2'], ⟨1, 3⟩⟩] :=
    scan_eq_ok_iff.1 (by decide +kernel)
  have hfails : FailsAt ['7', ',', '1', '2', 'x', '4'] ['7', ',', '1', '2'] 'x' ['4'] :=
    ⟨rfl, ⟨_, hcuts⟩, stuck_of_leading?_eq_none (by decide) rfl⟩
  have hnames := (names_iff_of_scan hscan).2 _ _ _ hfails
  exact ⟨hscan, hfails, hnames.1.2 (by decide)⟩

/-- A character that is white space but no blank. -/
def noBreakSpace : Char := '\u00a0'

/-- Not every word that is reported names the character at which scanning fails: a no-break space
behind a numeral is reported as the numeral. -/
theorem not_names_of_scan :
    ¬ ∀ (s : List Char) (error : ScanError), scan s = .error error →
      ∀ before c after, FailsAt s before c after → error.Names before c after := by
  intro h
  have hscan : scan ['5', noBreakSpace] = .error ⟨['5'], .start⟩ := by decide +kernel
  have hcuts : Cuts .start ['5'] [⟨.int, ['5'], .start⟩] := scan_eq_ok_iff.1 (by decide +kernel)
  have hfails : FailsAt ['5', noBreakSpace] ['5'] noBreakSpace [] :=
    ⟨rfl, ⟨_, hcuts⟩, stuck_of_leading?_eq_none (by decide) rfl⟩
  have hnumeral : Decimal.IsNumeral ['5'] (Nat.ofDigitChars 10 ['5'] 0) :=
    .unsigned ⟨List.cons_ne_nil _ _, List.forall_mem_singleton.2 rfl⟩
  exact (h _ _ hscan _ _ _ hfails).not_isNumeral _ hnumeral

end Token

end Intcode
