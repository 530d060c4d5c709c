import Intcode.Program
import Intcode.Proofs.Lexing
import Intcode.Text.Fields
import Mathlib.Data.List.DropRight
import Mathlib.Data.List.Forall2

/-!
# Program texts

Which texts are programs.  The reader cuts a text into tokens and then walks over them, waiting for
a value and for a comma in turn.  Here the same texts are described field by field, without tokens:
the text is taken apart at its commas, and each field, without the blanks at its two ends, has to be
a numeral that denotes a word (`FieldDenotes`).

The two descriptions are compared in both directions.  Along the way a text is cut, the values that
the reader finds are those of the fields (`forall₂_fields_of_cuts`); and along a list of fields with
values, the joined text can be cut into tokens with these values (`reads_intercalate`).

The text that a program is written as is one of them: it is read as the program again
(`parse_text_of_program`).
-/

namespace Intcode

/-! ## Fields without their blanks -/

namespace Text

/-- The text without the blanks at its two ends. -/
def trimBlanks (s : List Char) : List Char := (s.dropWhile isBlank).rdropWhile isBlank

lemma trimBlanks_cons {c : Char} (hc : isBlank c = true) (s : List Char) :
    trimBlanks (c :: s) = trimBlanks s := by
  rw [trimBlanks, List.dropWhile_cons_of_pos hc, trimBlanks]

lemma exists_eq_append_trimBlanks (s : List Char) :
    ∃ left right, s = left ++ (trimBlanks s ++ right) ∧ (∀ c ∈ left, isBlank c = true) ∧
      ∀ c ∈ right, isBlank c = true := by
  refine ⟨s.takeWhile isBlank, (s.dropWhile isBlank).rtakeWhile isBlank, ?_, ?_, ?_⟩
  · rw [trimBlanks, List.rdropWhile_append_rtakeWhile, List.takeWhile_append_dropWhile]
  · exact fun _ => List.mem_takeWhile_imp
  · exact fun _ => List.mem_rtakeWhile_imp

end Text

/-- A numeral is all that is left of it, with blanks behind it, when blanks are removed. -/
lemma Decimal.IsNumeral.trimBlanks_append {s blanks : List Char} {n : Int} (h : IsNumeral s n)
    (hblanks : ∀ c ∈ blanks, Text.isBlank c = true) : Text.trimBlanks (s ++ blanks) = s := by
  have hleft : (s ++ blanks).dropWhile Text.isBlank = s ++ blanks := by
    obtain ⟨c, rest, rfl, hc⟩ := h.exists_eq_cons
    exact List.dropWhile_cons_of_neg (by simp [hc])
  have hright : s.rdropWhile Text.isBlank = s := by
    obtain ⟨init, c, rfl, hc⟩ := h.exists_eq_concat
    exact List.rdropWhile_concat_neg _ _ _ (by simp [isBlank_eq_false_of_isDigit hc])
  have hdrop : (s ++ blanks).rdropWhile Text.isBlank = s.rdropWhile Text.isBlank := by
    rw [List.rdropWhile, List.reverse_append, List.dropWhile_append_of_pos (by simpa using hblanks),
      List.rdropWhile]
  rw [Text.trimBlanks, hleft, hdrop, hright]

namespace Program

/-- A field denotes a word if it is, without the blanks at its two ends, a numeral of it. -/
def FieldDenotes (field : List Char) (value : Word) : Prop :=
  Decimal.IsNumeral (Text.trimBlanks field) value.toInt

/-! ## Values of a text that is cut -/

/-- What is read off the tokens of a text is what its fields denote.  Where a comma is awaited, the
first field is only the end of one that began before, and may hold nothing but blanks. -/
lemma forall₂_fields_of_cuts {p : Place} {s : List Char} {tokens : List Token}
    (h : Token.Cuts p s tokens) :
    (∀ atEnd values, valueFirst atEnd tokens = .ok values →
      List.Forall₂ FieldDenotes (Text.fields ',' s) values) ∧
    ∀ values, commaFirst tokens = .ok values →
      ∃ first more, Text.fields ',' s = first :: more ∧ (∀ c ∈ first, Text.isBlank c = true) ∧
        List.Forall₂ FieldDenotes more values := by
  induction h with
  | nil p =>
    refine ⟨fun atEnd values hvalues => by simp [valueFirst] at hvalues, fun values hvalues => ?_⟩
    obtain rfl : [] = values := by simpa [commaFirst] using hvalues
    exact ⟨[], [], rfl, by simp, .nil⟩
  | @blank p c s tokens hblank _ ih =>
    have hcomma : ',' ∉ [c] := by
      rw [List.mem_singleton]
      rintro rfl
      exact absurd hblank (by decide)
    refine ⟨fun atEnd values hvalues => ?_, fun values hvalues => ?_⟩
    · have hfields := ih.1 atEnd values hvalues
      obtain ⟨first, more, heq⟩ := List.exists_cons_of_ne_nil (Text.fields_ne_nil ',' s)
      rw [heq] at hfields
      rw [← List.singleton_append, Text.fields_append_eq_cons hcomma heq]
      cases hfields with
      | cons hfirst hmore =>
        refine .cons ?_ hmore
        rwa [FieldDenotes, List.singleton_append, Text.trimBlanks_cons hblank]
    · obtain ⟨first, more, heq, hfirst, hmore⟩ := ih.2 values hvalues
      refine ⟨c :: first, more, Text.fields_append_eq_cons hcomma heq, ?_, hmore⟩
      exact List.forall_mem_cons.2 ⟨hblank, hfirst⟩
  | @comma p s tokens _ ih =>
    refine ⟨fun atEnd values hvalues => by simp [valueFirst] at hvalues, fun values hvalues => ?_⟩
    exact ⟨[], _, by rw [Text.fields, if_pos rfl], by simp, ih.1 _ values hvalues⟩
  | @int p lexeme s n tokens hn _ _ ih =>
    refine ⟨fun atEnd values hvalues => ?_, fun values hvalues => by simp [commaFirst] at hvalues⟩
    rw [valueFirst] at hvalues
    cases hvalue : Word.ofChars? lexeme with
    | none => simp [hvalue] at hvalues
    | some value =>
      cases hrest : commaFirst tokens with
      | error e => simp [hvalue, hrest] at hvalues
      | ok rest =>
        obtain rfl : value :: rest = values := by simpa [hvalue, hrest] using hvalues
        obtain ⟨first, more, heq, hfirst, hmore⟩ := ih.2 rest hrest
        rw [Text.fields_append_eq_cons hn.not_mem_comma heq]
        refine .cons ?_ hmore
        rw [FieldDenotes, hn.trimBlanks_append hfirst]
        exact Word.ofChars?_eq_some_iff.1 hvalue

/-! ## Tokens of fields with values -/

/-- A text that stands anywhere can be cut into tokens that begin with a value, and have these
values. -/
def Reads (s : List Char) (values : List Word) : Prop :=
  ∀ p, ∃ tokens, Token.Cuts p s tokens ∧ ∀ atEnd, valueFirst atEnd tokens = .ok values

/-- A text that stands anywhere can be cut into tokens that go on after a value, and have these
values. -/
def Continues (s : List Char) (values : List Word) : Prop :=
  ∀ p, ∃ tokens, Token.Cuts p s tokens ∧ commaFirst tokens = .ok values

lemma continues_nil : Continues [] [] := fun p => ⟨[], .nil p, rfl⟩

lemma Reads.continues {s : List Char} {values : List Word} (h : Reads s values) :
    Continues (',' :: s) values := by
  intro p
  obtain ⟨tokens, hcuts, hvalues⟩ := h (p.after ',')
  exact ⟨_, .comma hcuts, hvalues _⟩

/-- A field with a value, before a text that goes on after it. -/
lemma FieldDenotes.reads {field s : List Char} {value : Word} {values : List Word}
    (hfield : FieldDenotes field value) (hs : Continues s values)
    (hends : Token.EndsNumeral s) : Reads (field ++ s) (value :: values) := by
  intro p
  obtain ⟨left, right, heq, hleft, hright⟩ := Text.exists_eq_append_trimBlanks field
  have hafter : Token.EndsNumeral (right ++ s) := by
    cases right with
    | nil => exact hends
    | cons c right =>
      rintro _ ⟨⟩
      exact isDigit_eq_false_of_isBlank (hright c (by simp))
  obtain ⟨tokens, hcuts, hvalues⟩ :=
    hs (((p.afterAll left).afterAll (Text.trimBlanks field)).afterAll right)
  refine ⟨⟨.int, Text.trimBlanks field, p.afterAll left⟩ :: tokens, ?_, fun atEnd => ?_⟩
  · have happend : field ++ s = left ++ (Text.trimBlanks field ++ (right ++ s)) := by
      rw [← List.append_assoc _ right, ← List.append_assoc left, ← heq]
    rw [happend]
    exact .blanks hleft (.int hfield hafter (.blanks hright hcuts))
  · rw [valueFirst]
    simp [Word.ofChars?_eq_some_iff.2 hfield, hvalues]

/-- Fields with values, joined by commas, are read as these values. -/
lemma reads_intercalate {segments : List (List Char)} {values : List Word}
    (h : List.Forall₂ FieldDenotes segments values) (hne : segments ≠ []) :
    Reads (List.intercalate [','] segments) values := by
  induction h with
  | nil => exact absurd rfl hne
  | @cons field value more values hfield hmore ih =>
    cases hmore with
    | nil =>
      have hreads := hfield.reads continues_nil (by simp [Token.EndsNumeral])
      rw [List.append_nil] at hreads
      rwa [List.intercalate_singleton]
    | cons hsecond hrest =>
      rw [List.intercalate_cons_cons, List.append_assoc, List.singleton_append]
      refine hfield.reads (ih (List.cons_ne_nil _ _)).continues ?_
      rintro _ ⟨⟩
      decide

/-! ## Programs -/

/-- A text is a program if it can be cut into tokens with values. -/
lemma parseChars_eq_ok_iff {s : List Char} {p : Program} :
    parseChars s = .ok p ↔
      ∃ tokens, Token.Cuts .start s tokens ∧ ofTokens tokens = .ok p.cells.toList := by
  unfold parseChars
  constructor
  · intro h
    split at h
    · cases h
    next tokens hscan =>
      refine ⟨tokens, Token.scan_eq_ok_iff.1 hscan, ?_⟩
      cases hcells : ofTokens tokens with
      | error e =>
        rw [hcells] at h
        cases h
      | ok cells =>
        rw [hcells] at h
        cases h
        rfl
  · rintro ⟨tokens, hcuts, hcells⟩
    rw [Token.scan_eq_ok_iff.2 hcuts]
    dsimp only
    rw [hcells, Except.map, Array.toArray_toList]

/-- A text is a program exactly if each of its fields, between one comma and the next, denotes a
word, and the program consists of these words in order. -/
theorem parse_eq_ok_iff (text : String) (p : Program) :
    parse text = .ok p ↔
      List.Forall₂ FieldDenotes (Text.fields ',' text.toList) p.cells.toList := by
  rw [parse, parseChars_eq_ok_iff]
  constructor
  · rintro ⟨tokens, hcuts, hvalues⟩
    exact (forall₂_fields_of_cuts hcuts).1 _ _ hvalues
  · intro h
    obtain ⟨tokens, hcuts, hvalues⟩ :=
      reads_intercalate h (Text.fields_ne_nil ',' text.toList) .start
    rw [Text.intercalate_fields] at hcuts
    exact ⟨tokens, hcuts, hvalues _⟩

/-! ## Writing and reading again -/

/-- A written word, with nothing around it, denotes the word. -/
lemma fieldDenotes_chars (w : Word) : FieldDenotes w.chars w := by
  have hnumeral : Decimal.IsNumeral w.chars w.toInt :=
    Word.ofChars?_eq_some_iff.1 (Word.ofChars?_chars w)
  have htrim : Text.trimBlanks w.chars = w.chars := by
    have hblanks := hnumeral.trimBlanks_append (List.forall_mem_nil fun c => Text.isBlank c = true)
    rwa [List.append_nil] at hblanks
  rw [FieldDenotes, htrim]
  exact hnumeral

/-- The text of a program that is not empty is read as the program. -/
lemma parse_text {p : Program} (h : p.cells ≠ #[]) : parse p.text = .ok p := by
  have hdenote : List.Forall₂ FieldDenotes (p.cells.toList.map Word.chars) p.cells.toList := by
    rw [List.forall₂_map_left_iff, List.forall₂_same]
    intro w _
    exact fieldDenotes_chars w
  have hne : p.cells.toList.map Word.chars ≠ [] := by
    intro hnil
    exact h (Array.toList_eq_nil_iff.1 (List.map_eq_nil_iff.1 hnil))
  obtain ⟨tokens, hcuts, hvalues⟩ := reads_intercalate hdenote hne .start
  rw [parse, text, String.toList_ofList, parseChars_eq_ok_iff]
  exact ⟨tokens, hcuts, hvalues _⟩

/-- No text is read as the empty program. -/
lemma cells_ne_empty_of_parse {text : String} {p : Program} (h : parse text = .ok p) :
    p.cells ≠ #[] := by
  obtain ⟨tokens, hcuts, hvalues⟩ := parseChars_eq_ok_iff.1 h
  have hfields := (forall₂_fields_of_cuts hcuts).1 _ _ hvalues
  intro hempty
  rw [hempty, List.forall₂_nil_right_iff] at hfields
  exact Text.fields_ne_nil ',' text.toList hfields

/-- The text of a program is read as the program, whatever words it consists of, if there are any.
Whichever text a program has been read from, its own text is read as the same program, and reading
and writing it once more does not change it any more. -/
theorem parse_text_of_program :
    (∀ p : Program, parse p.text = .ok p ↔ p.cells ≠ #[]) ∧
      ∀ (text : String) (p : Program), parse text = .ok p →
        parse p.text = .ok p ∧ (parse p.text).map Program.text = .ok p.text := by
  constructor
  · intro p
    exact ⟨cells_ne_empty_of_parse, parse_text⟩
  · intro text p h
    have hagain := parse_text (cells_ne_empty_of_parse h)
    rw [hagain]
    exact ⟨rfl, rfl⟩

/-- The least word and the greatest one. -/
def extremes : Program :=
  ⟨#[⟨-9223372036854775808, by omega, by omega⟩, ⟨9223372036854775807, by omega, by omega⟩]⟩

/-- The extreme words again, with blanks, a plus sign and leading zeros. -/
def looseText : String :=
  String.ofList (' ' :: Decimal.signed (-9223372036854775808) ++
    [' ', ',', '\n', '+', '0', '0'] ++ Decimal.signed 9223372036854775807 ++ ['\n'])

theorem parse_text_of_program_extremes :
    parse extremes.text = .ok extremes ∧ parse looseText = .ok extremes ∧
      (parse extremes.text).map Program.text = .ok extremes.text := by
  have hread : parse looseText = .ok extremes := by
    rw [parse, looseText, String.toList_ofList]
    decide +kernel
  have hwritten := (parse_text_of_program.1 extremes).2 (by decide)
  exact ⟨hwritten, hread, (parse_text_of_program.2 looseText extremes hread).2⟩

end Program

end Intcode
