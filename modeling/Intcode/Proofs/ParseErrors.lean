import Intcode.Proofs.ProgramText
import Intcode.Proofs.ScanErrors

/-!
# Texts that are no programs

Which error a text is refused with (`Program.parse_eq_error_iff`).  Whatever else is wrong with a
text, the first thing to be reported is the leftmost character at which no token starts.  If there
is none, the text is cut into tokens, and the values and commas among them have to alternate: at the
even indices, counted from zero, there are values, and commas at the odd ones.  What is reported is
the leftmost token that breaks this rule (`Program.Breach`), or else the end of the text, if a value
is missing there.

Every error that names a place and a piece of the text names the place where the piece stands
(`Program.IsLocated`).
-/

namespace Intcode.Program

variable {i : Nat} {token : Token} {tokens : List Token} {error : ParseError} {s : List Char}

/-! ## Breaking the rule -/

/-- A numeral of an integer that does not fit in a word. -/
def OutOfRange (numeral : List Char) : Prop :=
  ∃ n, Decimal.IsNumeral numeral n ∧ ¬ (-9223372036854775808 ≤ n ∧ n ≤ 9223372036854775807)

/-- A numeral out of range is the numeral of no word. -/
lemma OutOfRange.ofChars?_eq_none {numeral : List Char} (h : OutOfRange numeral) :
    Word.ofChars? numeral = none := by
  obtain ⟨n, hnumeral, hrange⟩ := h
  unfold Word.ofChars?
  rw [Decimal.readInt?_eq_some_iff.2 hnumeral]
  exact dif_neg hrange

/-- A numeral in range is the numeral of a word. -/
lemma exists_word_of_not_outOfRange {numeral : List Char} {n : Int}
    (hnumeral : Decimal.IsNumeral numeral n) (h : ¬ OutOfRange numeral) :
    ∃ value, Word.ofChars? numeral = some value := by
  have hrange : -9223372036854775808 ≤ n ∧ n ≤ 9223372036854775807 := by
    by_contra hrange
    exact h ⟨n, hnumeral, hrange⟩
  exact ⟨⟨n, hrange.1, hrange.2⟩, Word.ofChars?_eq_some_iff.2 hnumeral⟩

/-- A token breaks the rule at an index, with the error that is reported. -/
inductive Breach : Nat → Token → ParseError → Prop
  /-- A comma stands where a value belongs. -/
  | missingValue {i : Nat} {token : Token} (heven : i % 2 = 0) (hkind : token.kind = .comma) :
    Breach i token (.missingValue token.place)
  /-- A value stands where a comma belongs. -/
  | missingSeparator {i : Nat} {token : Token} (hodd : i % 2 = 1) (hkind : token.kind = .int) :
    Breach i token (.missingSeparator token.lexeme token.place)
  /-- A value does not fit in a word. -/
  | integerOverflow {i : Nat} {token : Token} (heven : i % 2 = 0) (hkind : token.kind = .int)
    (hrange : OutOfRange token.lexeme) : Breach i token (.integerOverflow token.lexeme token.place)

/-- No token breaks the rule. -/
def Alternates (tokens : List Token) : Prop :=
  ∀ i token, tokens[i]? = some token → ∀ error, ¬ Breach i token error

lemma alternates_concat :
    Alternates (tokens ++ [token]) ↔
      Alternates tokens ∧ ∀ error, ¬ Breach tokens.length token error := by
  constructor
  · intro h
    constructor
    · intro i token' htoken
      exact h i token' (List.getElem?_append_left (List.getElem?_eq_some_iff.1 htoken).1 ▸ htoken)
    · exact h tokens.length token List.getElem?_concat_length
  · rintro ⟨hearlier, hlast⟩ i token' htoken
    rcases Nat.lt_or_ge i tokens.length with hlt | hge
    · rw [List.getElem?_append_left hlt] at htoken
      exact hearlier i token' htoken
    · obtain ⟨hi, _⟩ := List.getElem?_eq_some_iff.1 htoken
      rw [List.length_append, List.length_singleton] at hi
      obtain rfl : i = tokens.length := by omega
      rw [List.getElem?_concat_length] at htoken
      cases htoken
      exact hlast

/-- Either no token breaks the rule, or there is a leftmost one that does. -/
lemma alternates_or_exists_breach (tokens : List Token) :
    Alternates tokens ∨
      ∃ before token after error, tokens = before ++ token :: after ∧ Alternates before ∧
        Breach before.length token error := by
  induction tokens using List.reverseRecOn with
  | nil => exact Or.inl fun i token htoken => nomatch htoken
  | append_singleton tokens token ih =>
    rcases ih with halternates | ⟨before, token', after, error, rfl, hbefore, hbreach⟩
    · by_cases hbreach : ∃ error, Breach tokens.length token error
      · obtain ⟨error, hbreach⟩ := hbreach
        exact Or.inr ⟨tokens, token, [], error, rfl, halternates, hbreach⟩
      · exact Or.inl (alternates_concat.2 ⟨halternates, not_exists.1 hbreach⟩)
    · refine Or.inr ⟨before, token', after ++ [token], error, ?_, hbefore, hbreach⟩
      rw [List.append_assoc, List.cons_append]

/-! ## Walking over tokens -/

/-- What is read off the tokens from an index on; `atEnd` is the error if a value is missing at the
end. -/
def valuesFrom (i : Nat) (atEnd : ParseError) (tokens : List Token) :
    Except ParseError (List Word) :=
  if i % 2 = 0 then valueFirst atEnd tokens else commaFirst tokens

/-- The error if a value is missing behind some tokens. -/
def errorAtEnd (tokens : List Token) : ParseError :=
  match tokens.getLast? with
  | none => .empty
  | some token => .missingValue (token.place.after ',')

lemma errorAtEnd_concat (tokens : List Token) (token : Token) :
    errorAtEnd (tokens ++ [token]) = .missingValue (token.place.after ',') := by
  unfold errorAtEnd
  rw [List.getLast?_concat]

/-- A token that breaks the rule is reported. -/
lemma valuesFrom_of_breach (h : Breach i token error) (atEnd : ParseError) (rest : List Token) :
    valuesFrom i atEnd (token :: rest) = .error error := by
  unfold valuesFrom
  cases h with
  | missingValue heven hkind =>
    rw [if_pos heven, valueFirst, hkind]
  | missingSeparator hodd hkind =>
    rw [if_neg (by omega), commaFirst, hkind]
  | integerOverflow heven hkind hrange =>
    rw [if_pos heven, valueFirst, hkind, hrange.ofChars?_eq_none]

/-- A token that does not break the rule is read, and reading goes on behind it. -/
lemma exists_valuesFrom_cons (hspelled : token.IsSpelled) (h : ∀ error, ¬ Breach i token error)
    (atEnd : ParseError) :
    ∃ add : List Word → List Word, ∀ rest, valuesFrom i atEnd (token :: rest) =
      (valuesFrom (i + 1) (.missingValue (token.place.after ',')) rest).map add := by
  obtain ⟨kind, lexeme, place⟩ := token
  -- At an even index a value is awaited, at an odd one a comma.
  rcases Nat.mod_two_eq_zero_or_one i with heven | hodd
  · have hnext : ¬ (i + 1) % 2 = 0 := by omega
    cases kind with
    | comma => exact absurd (.missingValue heven rfl) (h _)
    | int =>
      obtain ⟨n, hnumeral⟩ := hspelled
      have hrange : ¬ OutOfRange lexeme := fun hrange => h _ (.integerOverflow heven rfl hrange)
      obtain ⟨value, hvalue⟩ := exists_word_of_not_outOfRange hnumeral hrange
      refine ⟨(value :: ·), fun rest => ?_⟩
      unfold valuesFrom
      simp only [if_pos heven, if_neg hnext, valueFirst, hvalue]
      rfl
  · have hnow : ¬ i % 2 = 0 := by omega
    have hnext : (i + 1) % 2 = 0 := by omega
    cases kind with
    | int => exact absurd (.missingSeparator hodd rfl) (h _)
    | comma =>
      refine ⟨id, fun rest => ?_⟩
      unfold valuesFrom
      simp only [if_neg hnow, if_pos hnext, commaFirst]
      exact (congrFun Except.map_id _).symm

/-- As long as no token breaks the rule, reading goes on behind them. -/
lemma exists_valuesFrom_append (hspelled : ∀ token ∈ tokens, token.IsSpelled)
    (h : Alternates tokens) :
    ∃ add : List Word → List Word, ∀ rest,
      ofTokens (tokens ++ rest) = (valuesFrom tokens.length (errorAtEnd tokens) rest).map add := by
  induction tokens using List.reverseRecOn with
  | nil => exact ⟨id, fun rest => (congrFun Except.map_id _).symm⟩
  | append_singleton tokens token ih =>
    obtain ⟨hearlier, hlast⟩ := alternates_concat.1 h
    obtain ⟨add, hadd⟩ := ih (fun t ht => hspelled t (List.mem_append_left _ ht)) hearlier
    have htoken : token.IsSpelled :=
      hspelled token (List.mem_append_right _ (List.mem_singleton.2 rfl))
    obtain ⟨add', hadd'⟩ := exists_valuesFrom_cons htoken hlast (errorAtEnd tokens)
    refine ⟨add ∘ add', fun rest => ?_⟩
    rw [List.append_assoc, List.singleton_append, hadd, hadd', errorAtEnd_concat,
      List.length_append, List.length_singleton]
    rcases valuesFrom (tokens.length + 1) (.missingValue (token.place.after ',')) rest with
      wrong | values
    · rfl
    · rfl

/-! ## Errors of tokens -/

/-- The leftmost token that breaks the rule is reported. -/
lemma ofTokens_of_breach {before after : List Token}
    (hspelled : ∀ token ∈ before, token.IsSpelled) (h : Alternates before)
    (hbreach : Breach before.length token error) :
    ofTokens (before ++ token :: after) = .error error := by
  obtain ⟨add, hadd⟩ := exists_valuesFrom_append hspelled h
  rw [hadd, valuesFrom_of_breach hbreach]
  rfl

/-- If no token breaks the rule, a value is missing at the end after an even number of tokens. -/
lemma ofTokens_of_even (hspelled : ∀ token ∈ tokens, token.IsSpelled) (h : Alternates tokens)
    (heven : tokens.length % 2 = 0) : ofTokens tokens = .error (errorAtEnd tokens) := by
  obtain ⟨add, hadd⟩ := exists_valuesFrom_append hspelled h
  have hwhole := hadd []
  rw [List.append_nil] at hwhole
  unfold valuesFrom at hwhole
  rw [hwhole, if_pos heven, valueFirst]
  rfl

/-- If no token breaks the rule, nothing is wrong after an odd number of tokens. -/
lemma ofTokens_ne_error_of_odd (hspelled : ∀ token ∈ tokens, token.IsSpelled)
    (h : Alternates tokens) (hodd : ¬ tokens.length % 2 = 0) : ofTokens tokens ≠ .error error := by
  obtain ⟨add, hadd⟩ := exists_valuesFrom_append hspelled h
  have hwhole := hadd []
  rw [List.append_nil] at hwhole
  unfold valuesFrom at hwhole
  rw [hwhole, if_neg hodd, commaFirst]
  intro hwrong
  cases hwrong

/-- A comma at the end that does not break the rule has an even number of tokens up to it. -/
lemma even_of_alternates_comma (h : Alternates (tokens ++ [token])) (hkind : token.kind = .comma) :
    (tokens ++ [token]).length % 2 = 0 := by
  rw [List.length_append, List.length_singleton]
  by_contra hodd
  have heven : tokens.length % 2 = 0 := by omega
  exact (alternates_concat.1 h).2 _ (.missingValue heven hkind)

/-- An even number of tokens that do not break the rule are none, or they end with a comma. -/
lemma eq_nil_or_exists_comma (h : Alternates tokens) (heven : tokens.length % 2 = 0) :
    tokens = [] ∨ ∃ earlier comma, tokens = earlier ++ [comma] ∧ comma.kind = .comma := by
  induction tokens using List.reverseRecOn with
  | nil => exact Or.inl rfl
  | append_singleton earlier last =>
    refine Or.inr ⟨earlier, last, rfl, ?_⟩
    rw [List.length_append, List.length_singleton] at heven
    have hodd : earlier.length % 2 = 1 := by omega
    cases hkind : last.kind with
    | comma => rfl
    | int => exact absurd (.missingSeparator hodd hkind) ((alternates_concat.1 h).2 _)

/-! ## Errors of texts -/

/-- The error with which a text is refused. -/
inductive Rejects (s : List Char) : ParseError → Prop
  /-- The text is cut into tokens up to a character at which no token starts.  The word around that
  character is reported, at the place where the word begins. -/
  | invalidToken {before head tail after : List Char} {tokens : List Token}
    (htext : s = before ++ head ++ (tail ++ after))
    (hcuts : Token.Cuts .start (before ++ head) tokens) (hstuck : Token.Stuck (tail ++ after))
    (hword : Token.IsWord before (head ++ tail) after) :
    Rejects s (.invalidToken ⟨head ++ tail, .behind before⟩)
  /-- There are no tokens. -/
  | empty (hcuts : Token.Cuts .start s []) : Rejects s .empty
  /-- A token breaks the rule, and none before it does. -/
  | breach {before after : List Token} {token : Token} {error : ParseError}
    (hcuts : Token.Cuts .start s (before ++ token :: after)) (halternates : Alternates before)
    (hbreach : Breach before.length token error) : Rejects s error
  /-- No token breaks the rule, but the last one is a comma.  The place right behind it is
  reported. -/
  | trailing {earlier : List Token} {comma : Token}
    (hcuts : Token.Cuts .start s (earlier ++ [comma]))
    (halternates : Alternates (earlier ++ [comma])) (hkind : comma.kind = .comma) :
    Rejects s (.missingValue (comma.place.after ','))

/-- A text that is cut into tokens is read as they are. -/
lemma parseChars_of_cuts (hcuts : Token.Cuts .start s tokens) :
    parseChars s = (ofTokens tokens).map fun cells => ⟨cells.toArray⟩ := by
  unfold parseChars
  rw [Token.scan_eq_ok_iff.2 hcuts]

/-- A text is refused with the error that is laid down for it. -/
lemma Rejects.parseChars_eq (h : Rejects s error) : parseChars s = .error error := by
  cases h with
  | invalidToken htext hcuts hstuck hword =>
    unfold parseChars
    rw [Token.scan_eq_error_iff.2 ⟨_, _, _, _, _, htext, hcuts, hstuck, hword, rfl⟩]
  | empty hcuts => exact parseChars_of_cuts hcuts
  | @breach before after token error hcuts halternates hbreach =>
    have hspelled : ∀ t ∈ before, t.IsSpelled := fun t ht =>
      (hcuts.exists_place (List.mem_append_left _ ht)).1
    rw [parseChars_of_cuts hcuts, ofTokens_of_breach hspelled halternates hbreach]
    rfl
  | @trailing earlier comma hcuts halternates hkind =>
    have hspelled : ∀ t ∈ earlier ++ [comma], t.IsSpelled := fun t ht => (hcuts.exists_place ht).1
    have heven := even_of_alternates_comma halternates hkind
    rw [parseChars_of_cuts hcuts, ofTokens_of_even hspelled halternates heven, errorAtEnd_concat]
    rfl

/-- For a text that is refused, an error is laid down. -/
lemma exists_rejects (h : parseChars s = .error error) : ∃ error', Rejects s error' := by
  rcases hscan : Token.scan s with stuck | tokens
  · obtain ⟨before, head, tail, after, tokens, htext, hcuts, hstuck, hword, _⟩ :=
      Token.scan_eq_error_iff.1 hscan
    exact ⟨_, .invalidToken htext hcuts hstuck hword⟩
  · have hcuts := Token.scan_eq_ok_iff.1 hscan
    have hspelled : ∀ t ∈ tokens, t.IsSpelled := fun t ht => (hcuts.exists_place ht).1
    rcases alternates_or_exists_breach tokens with
      halternates | ⟨before, token, after, error', rfl, halternates, hbreach⟩
    · by_cases heven : tokens.length % 2 = 0
      · rcases eq_nil_or_exists_comma halternates heven with rfl | ⟨earlier, comma, rfl, hkind⟩
        · exact ⟨_, .empty hcuts⟩
        · exact ⟨_, .trailing hcuts halternates hkind⟩
      · rw [parseChars_of_cuts hcuts] at h
        rcases hread : ofTokens tokens with error' | cells
        · exact absurd hread (ofTokens_ne_error_of_odd hspelled halternates heven)
        · rw [hread] at h
          cases h
    · exact ⟨_, .breach hcuts halternates hbreach⟩

/-! ## Where errors are -/

/-- The piece of the text that an error names, with the place that it names. -/
def reported? : ParseError → Option (List Char × Place)
  | .empty => none
  | .invalidToken error => some (error.word, error.place)
  | .integerOverflow numeral place => some (numeral, place)
  | .missingValue place => some ([], place)
  | .missingSeparator found place => some (found, place)

/-- The piece of the text that an error names stands at the place that it names. -/
def IsLocated (s : List Char) (error : ParseError) : Prop :=
  ∀ piece place, reported? error = some (piece, place) →
    ∃ before after, s = before ++ (piece ++ after) ∧ place = .behind before

/-- A token that breaks the rule is reported where it stands. -/
lemma Breach.isLocated (h : Breach i token error) (hstands : token.StandsIn s) :
    IsLocated s error := by
  obtain ⟨before, after, htext, hplace⟩ := hstands
  intro piece place hreported
  cases h with
  | missingValue =>
    cases hreported
    exact ⟨before, token.lexeme ++ after, htext, hplace⟩
  | missingSeparator | integerOverflow =>
    cases hreported
    exact ⟨before, after, htext, hplace⟩

lemma Rejects.isLocated (h : Rejects s error) : IsLocated s error := by
  cases h with
  | @invalidToken before head tail after tokens htext hcuts hstuck hword =>
    intro piece place hreported
    cases hreported
    refine ⟨before, after, ?_, rfl⟩
    simp only [htext, List.append_assoc]
  | empty => exact fun piece place hreported => nomatch hreported
  | breach hcuts halternates hbreach =>
    exact hbreach.isLocated (hcuts.standsIn (List.mem_append_right _ (List.mem_cons_self ..)))
  | @trailing earlier comma hcuts halternates hkind =>
    have hmem : comma ∈ earlier ++ [comma] := List.mem_append_right _ (List.mem_singleton.2 rfl)
    obtain ⟨before, after, htext, hplace⟩ := hcuts.standsIn hmem
    have hspelled := (hcuts.exists_place hmem).1
    have hlexeme : comma.lexeme = [','] := by
      unfold Token.IsSpelled at hspelled
      rwa [hkind] at hspelled
    intro piece place hreported
    cases hreported
    refine ⟨before ++ [','], after, ?_, ?_⟩
    · rw [htext, hlexeme, List.append_assoc]
      rfl
    · rw [hplace, Place.behind_concat]

/-- A text is refused exactly with the error that is laid down for it, and a piece of the text that
the error names stands at the place that the error names.  The tokens that are meant in this stand
at their places. -/
theorem parse_eq_error_iff (text : String) (error : ParseError) :
    (parse text = .error error ↔ Rejects text.toList error) ∧
      (parse text = .error error → IsLocated text.toList error) ∧
        ∀ tokens, Token.Cuts .start text.toList tokens →
          ∀ token ∈ tokens, token.StandsIn text.toList := by
  have hrejects : parse text = .error error → Rejects text.toList error := by
    intro h
    obtain ⟨error', hrejects⟩ := exists_rejects h
    -- A text is refused with one error only, so this is the one that is laid down.
    have hsame : parse text = .error error' := hrejects.parseChars_eq
    rw [h] at hsame
    cases hsame
    exact hrejects
  exact ⟨⟨hrejects, Rejects.parseChars_eq⟩, fun h => (hrejects h).isLocated,
    fun _ hcuts _ => hcuts.standsIn⟩

/-- Two commas without a value between them, and in the second line a word that is no numeral. -/
def muddledText : String :=
  String.ofList ['7', ',', ',', '\n', ' ', '1', '2', 'x', '4', ',', '9']

/-- The word is reported before the missing value. -/
theorem parse_eq_error_iff_muddledText :
    parse muddledText = .error (.invalidToken ⟨['1', '2', 'x', '4'], ⟨2, 2⟩⟩) ∧
      Rejects muddledText.toList (.invalidToken ⟨['1', '2', 'x', '4'], ⟨2, 2⟩⟩) ∧
        IsLocated muddledText.toList (.invalidToken ⟨['1', '2', 'x', '4'], ⟨2, 2⟩⟩) := by
  have hparse : parse muddledText = .error (.invalidToken ⟨['1', '2', 'x', '4'], ⟨2, 2⟩⟩) := by
    rw [parse, muddledText, String.toList_ofList]
    decide +kernel
  obtain ⟨hrejects, hlocated, _⟩ := parse_eq_error_iff muddledText _
  exact ⟨hparse, hrejects.1 hparse, hlocated hparse⟩

end Intcode.Program
