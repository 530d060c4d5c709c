/-!
# Fields

A text in which a character separates fields. Every text has at least one field. Joining the fields
of a text with the separator gives the text back (`intercalate_fields`), and taking a joined text
apart gives its fields back, if none of them contains the separator (`fields_intercalate`).
-/
namespace Intcode.Text

/-- The pieces of a text between the occurrences of a character. -/
def fields (separator : Char) : List Char → List (List Char)
  | [] => [[]]
  | c :: rest =>
    if c = separator then [] :: fields separator rest
    else
      match fields separator rest with
      | [] => [[c]]
      | first :: more => (c :: first) :: more

theorem fields_ne_nil (separator : Char) (s : List Char) : fields separator s ≠ [] := by
  cases s with
  | nil => simp [fields]
  | cons c rest =>
    unfold fields
    split
    · simp
    · split <;> simp

/-- No field contains the separator. -/
theorem separator_not_mem_fields (separator : Char) (s : List Char) :
    ∀ field ∈ fields separator s, separator ∉ field := by
  induction s with
  | nil => simp [fields]
  | cons c rest ih =>
    unfold fields
    split
    · intro field hfield
      rcases List.mem_cons.1 hfield with rfl | hfield
      · simp
      · exact ih field hfield
    next hc =>
      split
      · intro field hfield
        obtain rfl := List.mem_singleton.1 hfield
        simp [Ne.symm hc]
      next first more heq =>
        rw [heq] at ih
        intro field hfield
        rcases List.mem_cons.1 hfield with rfl | hfield
        · simpa [Ne.symm hc] using ih first (by simp)
        · exact ih field (by simp [hfield])

/-- Joining the fields of a text gives the text back. -/
theorem intercalate_fields (separator : Char) (s : List Char) :
    List.intercalate [separator] (fields separator s) = s := by
  induction s with
  | nil => rfl
  | cons c rest ih =>
    unfold fields
    cases h : fields separator rest with
    | nil => exact absurd h (fields_ne_nil separator rest)
    | cons first more =>
      rw [h] at ih
      split
      next hc => rw [hc, ← ih]; cases more <;> rfl
      next hc => rw [← ih]; cases more <;> rfl

/-- A text without a separator goes into the first field of the text that it stands before. -/
theorem fields_append_eq_cons {separator : Char} {s t first : List Char} {more : List (List Char)}
    (hs : separator ∉ s) (ht : fields separator t = first :: more) :
    fields separator (s ++ t) = (s ++ first) :: more := by
  induction s with
  | nil => exact ht
  | cons c s ih =>
    rw [List.mem_cons, not_or] at hs
    rw [List.cons_append, fields, if_neg (Ne.symm hs.1), ih hs.2]
    rfl

theorem fields_of_not_mem {separator : Char} {s : List Char} (h : separator ∉ s) :
    fields separator s = [s] := by
  have hfields := fields_append_eq_cons h (show fields separator [] = [[]] from rfl)
  rwa [List.append_nil] at hfields

theorem fields_append {separator : Char} {s : List Char} (h : separator ∉ s) (t : List Char) :
    fields separator (s ++ separator :: t) = s :: fields separator t := by
  have ht : fields separator (separator :: t) = [] :: fields separator t := by
    rw [fields, if_pos rfl]
  rw [fields_append_eq_cons h ht, List.append_nil]

/-- Taking a joined text apart gives its fields back. -/
theorem fields_intercalate {separator : Char} {pieces : List (List Char)} (hne : pieces ≠ [])
    (h : ∀ piece ∈ pieces, separator ∉ piece) :
    fields separator (List.intercalate [separator] pieces) = pieces := by
  induction pieces with
  | nil => exact absurd rfl hne
  | cons first more ih =>
    cases more with
    | nil =>
      rw [List.intercalate_singleton]
      exact fields_of_not_mem (h first (by simp))
    | cons second rest =>
      rw [List.intercalate_cons_cons, List.append_assoc, List.singleton_append,
        fields_append (h first (by simp)),
        ih (by simp) fun piece hpiece => h piece (List.mem_cons_of_mem _ hpiece)]

end Intcode.Text
