import Intcode.Json.Reader
import Intcode.Json.Writer
import Intcode.Proofs.Json.Scanning

/-!
# Written values are read again

Both forms of a plain value are read as that value (`read?_compact`, `read?_pretty`).

The indented form spells the tokens of the value, ahead of anything that may follow a value
(`spellsAhead_indented`), so that the scanner finds them in it; the compact form is that text
without its blanks.  The reader, wherever it expects a value, takes the tokens of one and then
expects what may follow that value (`foldlM_tokens`).
-/

namespace Intcode.Json

/-! ## Pieces of a text -/

/-- A piece of a text spells tokens ahead of whatever begins with a mark. -/
def SpellsAhead (piece : List Token) (chars : List Char) : Prop :=
  ∀ (tokens : List Token) (text : List Char), (∀ token ∈ tokens.head?, token.IsMark) →
    Spells tokens text → Spells (piece ++ tokens) (chars ++ text)

namespace SpellsAhead

variable {piece piece' : List Token} {chars chars' : List Char}

lemma nil : SpellsAhead [] [] := fun _ _ _ htext => htext

lemma scalar {s : Scalar} (hplain : s.IsPlain) : SpellsAhead [.scalar s] s.chars :=
  fun _ _ hmark htext => .scalar hplain hmark htext

/-- A piece may have a blank in front. -/
lemma blank (h : SpellsAhead piece chars) {c : Char} (hblank : Text.isBlank c = true) :
    SpellsAhead piece (c :: chars) :=
  fun tokens text hmark htext => .blank hblank (h tokens text hmark htext)

/-- A piece may be put on a new line. -/
lemma newline (h : SpellsAhead piece chars) (depth : Nat) :
    SpellsAhead piece (Value.newline depth ++ chars) := by
  have hspaces (count : Nat) : SpellsAhead piece (List.replicate count ' ' ++ chars) := by
    induction count with
    | zero => exact h
    | succ count ih => exact ih.blank rfl
  exact (hspaces (2 * depth)).blank rfl

/-- A mark may be put in front of a piece. -/
lemma mark (token : Token) {c : Char} (hmark : token.chars = [c] ∧ Token.ofMark? c = some token)
    (h : SpellsAhead piece chars) : SpellsAhead (token :: piece) (c :: chars) := by
  intro tokens text hnext htext
  have hspells := Spells.mark ⟨c, hmark⟩ (h tokens text hnext htext)
  rwa [hmark.1] at hspells

/-- A piece that begins with a mark may follow another one. -/
lemma append (h : SpellsAhead piece chars) {token : Token} (hmark : token.IsMark)
    (h' : SpellsAhead (token :: piece') chars') :
    SpellsAhead (piece ++ token :: piece') (chars ++ chars') := by
  intro tokens text hnext htext
  have hmark' : ∀ first ∈ (token :: piece' ++ tokens).head?, first.IsMark := by
    rintro _ ⟨⟩
    exact hmark
  rw [List.append_assoc, List.append_assoc]
  exact h _ _ hmark' (h' tokens text hnext htext)

/-- A piece may be enclosed between two marks, the second one of them on a new line. -/
lemma enclosed (h : SpellsAhead piece chars) {first last : Token} {c d : Char} (depth : Nat)
    (hfirst : first.chars = [c] ∧ Token.ofMark? c = some first)
    (hlast : last.chars = [d] ∧ Token.ofMark? d = some last) :
    SpellsAhead (first :: piece ++ [last]) (c :: chars ++ Value.newline depth ++ [d]) := by
  have hclosed := (mark last hlast nil).newline depth
  have henclosed := mark first hfirst (h.append ⟨d, hlast⟩ hclosed)
  rwa [← List.append_assoc] at henclosed

/-- Two pieces may be separated by a comma. -/
lemma separated (h : SpellsAhead piece chars) (h' : SpellsAhead piece' chars') :
    SpellsAhead (piece ++ .comma :: piece') (chars ++ ',' :: chars') :=
  h.append ⟨',', rfl, rfl⟩ (mark .comma ⟨rfl, rfl⟩ h')

/-- A piece may have a key in front. -/
lemma keyed (h : SpellsAhead piece chars) {key : List StringPart}
    (hplain : (Scalar.string key).IsPlain) :
    SpellsAhead (.scalar (.string key) :: .colon :: piece)
      (stringChars key ++ [':', ' '] ++ chars) := by
  have hvalue := mark .colon ⟨rfl, rfl⟩ (h.blank (c := ' ') rfl)
  have hkeyed := (scalar hplain).append ⟨':', rfl, rfl⟩ hvalue
  rwa [List.append_assoc]

end SpellsAhead

namespace Value

/-- A value is plain if all its keys and all values within it that have no parts are. -/
inductive IsPlain : Value → Prop where
  | scalar {s : Scalar} : s.IsPlain → IsPlain (.scalar s)
  | array {items : List Value} : (∀ item ∈ items, item.IsPlain) → IsPlain (.array items)
  | object {members : List (List StringPart × Value)} :
      (∀ member ∈ members, (Scalar.string member.1).IsPlain) →
      (∀ member ∈ members, member.2.IsPlain) → IsPlain (.object members)

mutual

/-- The indented form of a value spells its tokens, at any depth. -/
theorem spellsAhead_indented (v : Value) (hplain : v.IsPlain) (depth : Nat) :
    SpellsAhead v.tokens (v.indented depth) := by
  match v, hplain with
  | .scalar s, .scalar hs => exact .scalar hs
  | .array [], _ =>
    exact .mark .openArray ⟨rfl, rfl⟩ (.mark .closeArray ⟨rfl, rfl⟩ .nil)
  | .array (item :: rest), .array hitems =>
    have hbody := spellsAhead_indentedItems (item :: rest) hitems (depth + 1)
    exact hbody.enclosed depth ⟨rfl, rfl⟩ ⟨rfl, rfl⟩
  | .object [], _ =>
    exact .mark .openObject ⟨rfl, rfl⟩ (.mark .closeObject ⟨rfl, rfl⟩ .nil)
  | .object (member :: rest), .object hkeys hvalues =>
    have hbody := spellsAhead_indentedMembers (member :: rest) hkeys hvalues (depth + 1)
    exact hbody.enclosed depth ⟨rfl, rfl⟩ ⟨rfl, rfl⟩

theorem spellsAhead_indentedItems (items : List Value) (hplain : ∀ item ∈ items, item.IsPlain)
    (depth : Nat) : SpellsAhead (itemTokens items) (indentedItems depth items) := by
  match items, hplain with
  | [], _ => exact .nil
  | [item], hplain =>
    have hitem := spellsAhead_indented item (hplain item List.mem_cons_self) depth
    exact hitem.newline depth
  | item :: next :: rest, hplain =>
    obtain ⟨hitem, hrest⟩ := List.forall_mem_cons.1 hplain
    have hfirst := (spellsAhead_indented item hitem depth).newline depth
    exact hfirst.separated (spellsAhead_indentedItems (next :: rest) hrest depth)

theorem spellsAhead_indentedMembers (members : List (List StringPart × Value))
    (hkeys : ∀ member ∈ members, (Scalar.string member.1).IsPlain)
    (hvalues : ∀ member ∈ members, member.2.IsPlain) (depth : Nat) :
    SpellsAhead (memberTokens members) (indentedMembers depth members) := by
  match members, hkeys, hvalues with
  | [], _, _ => exact .nil
  | [(key, value)], hkeys, hvalues =>
    have hvalue := spellsAhead_indented value (hvalues (key, value) List.mem_cons_self) depth
    have hmember := (hvalue.keyed (hkeys (key, value) List.mem_cons_self)).newline depth
    simpa [indentedMembers, memberTokens] using hmember
  | (key, value) :: next :: rest, hkeys, hvalues =>
    obtain ⟨hkey, hkeys⟩ := List.forall_mem_cons.1 hkeys
    obtain ⟨hvalue, hvalues⟩ := List.forall_mem_cons.1 hvalues
    have hfirst := ((spellsAhead_indented value hvalue depth).keyed hkey).newline depth
    have hrest := spellsAhead_indentedMembers (next :: rest) hkeys hvalues depth
    have hmembers := hfirst.separated hrest
    simpa [indentedMembers, memberTokens] using hmembers

end

end Value

/-! ## Reading tokens -/

lemma Value.itemTokens_cons_cons (item next : Value) (rest : List Value) :
    itemTokens (item :: next :: rest) = item.tokens ++ .comma :: itemTokens (next :: rest) := by
  rw [itemTokens]
  exact fun hrest => nomatch hrest

lemma Value.memberTokens_cons_cons (key : List StringPart) (value : Value)
    (next : List StringPart × Value) (rest : List (List StringPart × Value)) :
    memberTokens ((key, value) :: next :: rest) = .scalar (.string key) :: .colon ::
      (value.tokens ++ .comma :: memberTokens (next :: rest)) := by
  rw [memberTokens]
  · rfl
  · exact fun hrest => nomatch hrest

namespace Reading

lemma foldlM_cons_of_step {r r' : Reading} {token : Token} (h : r.step token = some r')
    (tokens : List Token) : (token :: tokens).foldlM step r = tokens.foldlM step r' := by
  rw [List.foldlM_cons, h]
  rfl

/-- An array that is not empty begins with its first item, and no item begins with a bracket that
closes an array. -/
lemma foldlM_firstItem (item : Value) (rest : List Value) (stack : List Frame)
    (tokens : List Token) :
    (Value.itemTokens (item :: rest) ++ tokens).foldlM step ⟨stack, .firstItem⟩ =
      (Value.itemTokens (item :: rest) ++ tokens).foldlM step ⟨.array [] :: stack, .value⟩ := by
  obtain ⟨token, others, hitem, hopen⟩ : ∃ token others,
      item.tokens = token :: others ∧ token ≠ .closeArray := by
    cases item <;> exact ⟨_, _, rfl, by simp⟩
  obtain ⟨others', hitems⟩ : ∃ others', Value.itemTokens (item :: rest) = token :: others' := by
    cases rest with
    | nil => exact ⟨others, hitem⟩
    | cons next rest =>
      rw [Value.itemTokens_cons_cons, hitem]
      exact ⟨_, rfl⟩
  have hstep : step ⟨stack, .firstItem⟩ token = step ⟨.array [] :: stack, .value⟩ token :=
    if_neg hopen
  rw [hitems, List.cons_append, List.foldlM_cons, List.foldlM_cons, hstep]

/-- An object that is not empty begins with its first key. -/
lemma foldlM_firstKey (member : List StringPart × Value) (rest : List (List StringPart × Value))
    (stack : List Frame) (tokens : List Token) :
    (Value.memberTokens (member :: rest) ++ tokens).foldlM step ⟨stack, .firstKey⟩ =
      (Value.memberTokens (member :: rest) ++ tokens).foldlM step ⟨stack, .key []⟩ := by
  cases rest <;> rfl

mutual

/-- Where a value is expected, the tokens of a value are read as that value. -/
theorem foldlM_tokens (v : Value) (stack : List Frame) (tokens : List Token) :
    (v.tokens ++ tokens).foldlM step ⟨stack, .value⟩ = tokens.foldlM step ⟨stack, .next v⟩ := by
  match v with
  | .scalar s => exact foldlM_cons_of_step rfl tokens
  | .array [] => exact (foldlM_cons_of_step rfl _).trans (foldlM_cons_of_step rfl tokens)
  | .array (item :: rest) =>
    have hopened : ((Value.array (item :: rest)).tokens ++ tokens).foldlM step ⟨stack, .value⟩ =
        (Value.itemTokens (item :: rest) ++ .closeArray :: tokens).foldlM step
          ⟨stack, .firstItem⟩ := by
      rw [Value.tokens, List.append_assoc]
      exact foldlM_cons_of_step rfl _
    rw [hopened, foldlM_firstItem, foldlM_itemTokens (item :: rest) (List.cons_ne_nil _ _)]
    rfl
  | .object [] => exact (foldlM_cons_of_step rfl _).trans (foldlM_cons_of_step rfl tokens)
  | .object (member :: rest) =>
    have hopened : ((Value.object (member :: rest)).tokens ++ tokens).foldlM step ⟨stack, .value⟩ =
        (Value.memberTokens (member :: rest) ++ .closeObject :: tokens).foldlM step
          ⟨stack, .firstKey⟩ := by
      rw [Value.tokens, List.append_assoc]
      exact foldlM_cons_of_step rfl _
    rw [hopened, foldlM_firstKey, foldlM_memberTokens (member :: rest) (List.cons_ne_nil _ _)]
    rfl

/-- The rest of an array is read behind the items that have been read before. -/
theorem foldlM_itemTokens (items : List Value) (hne : items ≠ []) (done : List Value)
    (stack : List Frame) (tokens : List Token) :
    (Value.itemTokens items ++ .closeArray :: tokens).foldlM step ⟨.array done :: stack, .value⟩ =
      tokens.foldlM step ⟨stack, .next (.array (done.reverse ++ items))⟩ := by
  match items, hne with
  | [item], _ =>
    rw [Value.itemTokens, foldlM_tokens item, foldlM_cons_of_step rfl, List.reverse_cons]
  | item :: next :: rest, _ =>
    rw [Value.itemTokens_cons_cons, List.append_assoc, foldlM_tokens item, List.cons_append,
      foldlM_cons_of_step rfl, foldlM_itemTokens (next :: rest) (List.cons_ne_nil _ _),
      List.reverse_cons, List.append_assoc]
    rfl

/-- The rest of an object is read behind the members that have been read before. -/
theorem foldlM_memberTokens (members : List (List StringPart × Value)) (hne : members ≠ [])
    (done : List (List StringPart × Value)) (stack : List Frame) (tokens : List Token) :
    (Value.memberTokens members ++ .closeObject :: tokens).foldlM step ⟨stack, .key done⟩ =
      tokens.foldlM step ⟨stack, .next (.object (done.reverse ++ members))⟩ := by
  match members, hne with
  | [(key, value)], _ =>
    rw [Value.memberTokens, List.cons_append, foldlM_cons_of_step rfl, List.cons_append,
      foldlM_cons_of_step rfl, foldlM_tokens value, foldlM_cons_of_step rfl, List.reverse_cons]
  | (key, value) :: next :: rest, _ =>
    rw [Value.memberTokens_cons_cons, List.cons_append, foldlM_cons_of_step rfl, List.cons_append,
      foldlM_cons_of_step rfl, List.append_assoc, foldlM_tokens value, List.cons_append,
      foldlM_cons_of_step rfl, foldlM_memberTokens (next :: rest) (List.cons_ne_nil _ _),
      List.reverse_cons, List.append_assoc]
    rfl

end

end Reading

/-- The tokens of a value stand for it. -/
theorem ofTokens?_tokens (v : Value) : ofTokens? v.tokens = some v := by
  have hread := Reading.foldlM_tokens v [] []
  rw [List.append_nil] at hread
  unfold ofTokens? Reading.start
  rw [hread]
  rfl

/-- A text that spells the tokens of a value is read as that value. -/
lemma readChars?_of_spells {v : Value} {text : List Char} (h : Spells v.tokens text) :
    readChars? text = some v := by
  rw [readChars?, h.scan]
  exact ofTokens?_tokens v

namespace Value

variable {v : Value}

lemma spells_indented (hplain : v.IsPlain) : Spells v.tokens (v.indented 0) := by
  have hspells := spellsAhead_indented v hplain 0 [] [] (by simp) .nil
  rwa [List.append_nil, List.append_nil] at hspells

/-- Reading undoes writing in the indented form. -/
theorem read?_pretty (hplain : v.IsPlain) : read? v.pretty = some v := by
  rw [read?, pretty, String.toList_ofList]
  exact readChars?_of_spells (spells_indented hplain)

/-- Reading undoes writing in the compact form. -/
theorem read?_compact (hplain : v.IsPlain) : read? v.compact = some v := by
  rw [read?, compact, String.toList_ofList]
  exact readChars?_of_spells (spells_indented hplain).flatMap_chars

end Value

end Intcode.Json
