import Intcode.Proofs.Json.Reading
import Intcode.Snapshot

/-!
# Saved forms are read again

A program image that is written as JSON is read as the same program, and a saved snapshot is loaded
as the same snapshot, whatever the words, counters and lists in it are (`reads_saved`).

Writing and reading go through JSON values.  That the texts of these values are read again is shown
for all plain values (`Json.Value.read?_compact`, `Json.Value.read?_pretty`); what is left is that
every kind of value stands for what it was made from.
-/

namespace Intcode

namespace Json

/-! ## Texts and records -/

/-- The parts of a text stand for the text. -/
lemma textOf?_partsOf (text : String) : textOf? (partsOf text) = some text := by
  have hchars (chars : List Char) : charsOf? (chars.map .char) = some chars := by
    induction chars with
    | nil => rfl
    | cons c chars ih => rw [List.map_cons, charsOf?, ih, Option.map_some]
  rw [textOf?, partsOf, hchars, Option.map_some, String.ofList_toList]

/-- A text with no control characters is plain. -/
lemma isPlain_partsOf {text : String} (h : text.toList.all fun c => 0x20 ≤ c.toNat) :
    (Scalar.string (partsOf text)).IsPlain := by
  intro part hpart
  obtain ⟨c, hc, rfl⟩ := List.mem_map.1 hpart
  have hcontrol := List.all_eq_true.1 h c hc
  exact show 0x20 ≤ c.toNat by simpa using hcontrol

/-- The members that a record is made of are its fields, named. -/
lemma mapM_named (fields : List (String × Value)) :
    (fields.map fun (key, value) => (partsOf key, value)).mapM
      (fun (key, value) => (textOf? key).map fun name => (name, value)) = some fields := by
  induction fields with
  | nil => rfl
  | cons field fields ih =>
    have hfield : (textOf? (partsOf field.1)).map (fun name => (name, field.2)) = some field := by
      rw [textOf?_partsOf]
      rfl
    rw [List.map_cons, List.mapM_cons, ih]
    change ((textOf? (partsOf field.1)).map _).bind _ = _
    rw [hfield]
    rfl

/-- A record has the fields that it is made of, if no two of them have the same name. -/
lemma Record.ofValue?_record {names : List String} {fields : List (String × Value)}
    (hnames : fields.map Prod.fst = names) (hnodup : names.Nodup) :
    ofValue? names (Value.record fields) = some ⟨fields⟩ := by
  have hknown : fields.filter (fun field => names.contains field.1) = fields := by
    rw [List.filter_eq_self]
    intro field hfield
    rw [List.contains_iff_mem, ← hnames]
    exact List.mem_map_of_mem hfield
  change ofMembers? names _ = _
  unfold ofMembers?
  rw [mapM_named]
  change (if ((fields.filter _).map Prod.fst).Nodup then _ else _) = _
  rw [hknown, hnames, if_pos hnodup]

namespace Value

/-! ## Words, counts and lists -/

lemma toWord?_word (w : Word) : (word w).toWord? = some w := Word.ofInt?_toInt w

lemma toNatBelow?_int {bound n : Nat} (h : n < bound) : (int n).toNatBelow? bound = some n :=
  if_pos h

lemma toCount?_count (u : UInt64) : (count u).toCount? = some u := by
  rw [toCount?, count, toNatBelow?_int u.toNat_lt, Option.map_some, UInt64.ofNat_toNat]

lemma toSmallCount?_int (u : UInt32) : (int u.toNat).toSmallCount? = some u := by
  rw [toSmallCount?, toNatBelow?_int u.toNat_lt, Option.map_some, UInt32.ofNat_toNat]

lemma toWords?_words (ws : List Word) : (words ws).toWords? = some ws := by
  change (ws.map word).mapM toWord? = some ws
  induction ws with
  | nil => rfl
  | cons w ws ih =>
    rw [List.map_cons, List.mapM_cons, ih, toWord?_word]
    rfl

lemma isPlain_int (n : Int) : (int n).IsPlain := .scalar trivial

lemma isPlain_words (ws : List Word) : (words ws).IsPlain := by
  refine .array fun item hitem => ?_
  obtain ⟨w, _, rfl⟩ := List.mem_map.1 hitem
  exact isPlain_int w.toInt

/-- A record is plain if its keys and its values are. -/
lemma isPlain_record (names : List String) {fields : List (String × Value)}
    (hnames : fields.map Prod.fst = names)
    (hkeys : names.all fun name => name.toList.all fun c => 0x20 ≤ c.toNat)
    (hvalues : ∀ field ∈ fields, field.2.IsPlain) : (record fields).IsPlain := by
  refine .object (fun member hmember => ?_) fun member hmember => ?_
  all_goals obtain ⟨field, hfield, rfl⟩ := List.mem_map.1 hmember
  · have hname : field.1 ∈ names := hnames ▸ List.mem_map_of_mem hfield
    exact isPlain_partsOf (List.all_eq_true.1 hkeys field.1 hname)
  · exact hvalues field hfield

end Value

end Json

open Json

/-! ## Programs, tapes and statuses -/

lemma Program.ofJson?_toJson (p : Program) : ofJson? p.toJson = some p := by
  have hrecord : Record.ofValue? ["cells"] p.toJson =
      some ⟨[("cells", .words p.cells.toList)]⟩ := Record.ofValue?_record rfl (by decide)
  have hcells : Record.required ⟨[("cells", .words p.cells.toList)]⟩ "cells" Value.toWords? =
      some p.cells.toList := Value.toWords?_words p.cells.toList
  unfold ofJson?
  rw [hrecord, Option.bind_eq_bind, Option.bind_some, hcells]
  rfl

lemma Tape.ofJson?_toJson (t : Tape) : ofJson? t.toJson = some t := by
  have hrecord : Record.ofValue? ["cells", "limit"] t.toJson =
      some ⟨[("cells", .words t.cells.toList), ("limit", .count t.limit)]⟩ :=
    Record.ofValue?_record rfl (by decide)
  unfold ofJson?
  rw [hrecord]
  change ((Value.words t.cells.toList).toWords?.bind fun cells =>
    (Value.count t.limit).toCount?.bind fun limit => some (⟨cells.toArray, limit⟩ : Tape)) = some t
  rw [Value.toWords?_words, Value.toCount?_count]
  rfl

lemma Status.ofJson?_toJson (status : Status) : ofJson? status.toJson = some status := by
  cases status with
  | running => decide
  | needsInput => decide
  | halted => decide
  | hasOutput value =>
    simp [toJson, ofJson?, Value.record, textOf?_partsOf, Value.toWord?_word]

/-! ## Snapshots -/

namespace Snapshot

/-- A last output, or that there is none, is read as it was. -/
lemma toOptionalWord?_lastOutput (lastOutput : Option Word) :
    (match lastOutput with
      | some value => Value.word value
      | none => Value.null).toOptionalWord? = some lastOutput := by
  cases lastOutput with
  | none => rfl
  | some value => exact congrArg (Option.map some) (Value.toWord?_word value)

lemma ofJson?_toJson (s : Snapshot) : ofJson? s.toJson = some s := by
  have hrecord : Record.ofValue? fieldNames s.toJson = some ⟨_⟩ :=
    Record.ofValue?_record rfl (by decide)
  unfold ofJson?
  rw [hrecord]
  simp only [Record.optional, Record.required, Record.get?, List.lookup_cons, String.reduceBEq,
    Option.bind_eq_bind, Option.bind_some, Value.toSmallCount?_int, Program.ofJson?_toJson,
    Tape.ofJson?_toJson, Value.toCount?_count, Value.toWord?_word, Status.ofJson?_toJson,
    Value.toWords?_words]
  exact congrArg (Option.bind · fun lastOutput => some { s with lastOutput })
    (toOptionalWord?_lastOutput s.lastOutput)

end Snapshot

/-! ## What is saved is plain -/

lemma Program.isPlain_toJson (p : Program) : p.toJson.IsPlain := by
  refine Value.isPlain_record ["cells"] rfl (by decide) fun field hfield => ?_
  rw [List.mem_singleton.1 hfield]
  exact Value.isPlain_words p.cells.toList

lemma Tape.isPlain_toJson (t : Tape) : t.toJson.IsPlain := by
  refine Value.isPlain_record ["cells", "limit"] rfl (by decide) fun field hfield => ?_
  simp only [List.mem_cons, List.not_mem_nil, or_false] at hfield
  rcases hfield with rfl | rfl
  · exact Value.isPlain_words t.cells.toList
  · exact Value.isPlain_int t.limit.toNat

lemma Status.isPlain_toJson (status : Status) : status.toJson.IsPlain := by
  cases status with
  | running => exact .scalar (isPlain_partsOf (by decide))
  | needsInput => exact .scalar (isPlain_partsOf (by decide))
  | halted => exact .scalar (isPlain_partsOf (by decide))
  | hasOutput value =>
    refine Value.isPlain_record ["HasOutput"] rfl (by decide) fun field hfield => ?_
    rw [List.mem_singleton.1 hfield]
    exact Value.isPlain_int value.toInt

namespace Snapshot

lemma isPlain_toJson (s : Snapshot) : s.toJson.IsPlain := by
  refine Value.isPlain_record fieldNames rfl (by decide) fun field hfield => ?_
  simp only [List.mem_cons, List.not_mem_nil, or_false] at hfield
  rcases hfield with rfl | rfl | rfl | rfl | rfl | rfl | rfl | rfl | rfl
  · exact Value.isPlain_int s.version.toNat
  · exact s.program.isPlain_toJson
  · exact s.tape.isPlain_toJson
  · exact Value.isPlain_int s.ip.toNat
  · exact Value.isPlain_int s.relativeBase.toInt
  · exact s.status.isPlain_toJson
  · exact Value.isPlain_words s.inputs
  · cases s.lastOutput with
    | none => exact .scalar trivial
    | some value => exact Value.isPlain_int value.toInt
  · exact Value.isPlain_int s.steps.toNat

/-- A saved snapshot of a known version is loaded as it was. -/
theorem load_save {s : Snapshot} (hversion : s.version ≤ latestVersion) : load s.save = .ok s := by
  unfold load save
  rw [Value.read?_pretty s.isPlain_toJson, Option.bind_some, ofJson?_toJson]
  exact if_neg (UInt32.not_lt.2 hversion)

/-- Only snapshots of known versions are loaded. -/
lemma version_le_of_load {text : String} {s : Snapshot} (h : load text = .ok s) :
    s.version ≤ latestVersion := by
  unfold load at h
  split at h
  · cases h
  · split_ifs at h with hversion
    cases h
    exact UInt32.not_lt.1 hversion

end Snapshot

/-- The image of a program is read as it was. -/
lemma Program.ofImage?_imageText (p : Program) : ofImage? p.imageText = some p := by
  unfold ofImage? imageText
  rw [Value.read?_compact p.isPlain_toJson, Option.bind_some, ofJson?_toJson]

/-- What is saved is read again: the compact image of every program, and the indented form of every
snapshot whose version is known.  What has been read from any text at all, with its fields in
another order, left out or written in another way, comes back after it has been saved. -/
theorem reads_saved :
    (∀ p : Program, Program.ofImage? p.imageText = some p) ∧
    (∀ s : Snapshot, s.version ≤ 1 → Snapshot.load s.save = .ok s) ∧
    (∀ (text : String) (p : Program), Program.ofImage? text = some p →
      Program.ofImage? p.imageText = some p) ∧
    ∀ (text : String) (s : Snapshot), Snapshot.load text = .ok s →
      Snapshot.load s.save = .ok s := by
  refine ⟨Program.ofImage?_imageText, fun s => Snapshot.load_save, ?_, fun text s hload => ?_⟩
  · exact fun _ p _ => Program.ofImage?_imageText p
  · exact Snapshot.load_save (Snapshot.version_le_of_load hload)

/-- A snapshot that no machine takes: it has version zero, and it has just emitted a value but
knows of none that was emitted. -/
def foreign : Snapshot :=
  ⟨0, ⟨#[Word.ofCount 99]⟩, ⟨#[Word.ofCount 99], 7⟩, 0, .minusOne, .hasOutput (Word.ofCount 5), [],
    none, 0⟩

/-- `foreign`, as it is read from a list of its first fields with blanks between them, and a program
as it is read from a list with its only field. -/
theorem reads_saved_foreign :
    (Snapshot.load "[0, [[99]], [[99], 7], 0, -1, \x7b\"HasOutput\": 5\x7d]" = .ok foreign ∧
      Snapshot.load foreign.save = .ok foreign) ∧
    ({ foreign with version := 1 }.version ≤ 1 ∧
      Snapshot.load (Snapshot.save { foreign with version := 1 }) =
        .ok { foreign with version := 1 }) ∧
    Program.ofImage? "[ [-1] ]" = some ⟨#[.minusOne]⟩ ∧
      Program.ofImage? (Program.imageText ⟨#[.minusOne]⟩) = some ⟨#[.minusOne]⟩ := by
  obtain ⟨_, hsaved, himage, hread⟩ := reads_saved
  have hload :
      Snapshot.load "[0, [[99]], [[99], 7], 0, -1, \x7b\"HasOutput\": 5\x7d]" = .ok foreign := by
    decide +kernel
  have hprogram : Program.ofImage? "[ [-1] ]" = some ⟨#[.minusOne]⟩ := by
    decide +kernel
  have hversion : { foreign with version := 1 }.version ≤ 1 := UInt32.le_refl 1
  exact ⟨⟨hload, hread _ _ hload⟩, ⟨hversion, hsaved _ hversion⟩, hprogram, himage _ _ hprogram⟩

end Intcode
