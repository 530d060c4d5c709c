import Intcode.Amplifier.Search
import Intcode.Proofs.Agreement
import Mathlib.Data.List.FinRange
import Mathlib.Data.List.Permutation

/-!
# The search for the best order of phases

The search tries all orders of the phases and stops at the first one whose amplifier fails.

Which orders there are does not depend on the phases but only on their number: `positions` lists the
orders of the numbers below it, and each order of phases is one of these (`orderings_eq_map`).
Taking out one element after the other reaches every order once, in lexicographic order, because the
elements are taken out from left to right (`isEnumeration_positions`).

The search keeps what it would have found if it had ended where it is (`Finds`), so that it finds
the first of the best orders or the first failure (`exists_bestOf`, `exists_bestOf_none`).
-/

namespace Intcode

/-! ## One element and the others -/

section Picks

variable {α β : Type} {xs others : List α} {x : α}

lemma picks_map (f : α → β) (xs : List α) :
    picks (xs.map f) = (picks xs).map fun (x, others) => (f x, others.map f) := by
  induction xs with
  | nil => rfl
  | cons x rest ih =>
    rw [List.map_cons, picks, ih, picks, List.map_cons, List.map_map, List.map_map]
    rfl

/-- The elements are picked from left to right. -/
lemma map_fst_picks (xs : List α) : (picks xs).map Prod.fst = xs := by
  induction xs with
  | nil => rfl
  | cons x rest ih =>
    rw [picks, List.map_cons, List.map_map]
    exact congrArg (x :: ·) ih

/-- The others are what is left. -/
lemma perm_of_mem_picks (h : (x, others) ∈ picks xs) : (x :: others).Perm xs := by
  induction xs generalizing others with
  | nil => cases h
  | cons y rest ih =>
    rw [picks, List.mem_cons, List.mem_map] at h
    rcases h with hhead | ⟨⟨z, left⟩, hmem, hpick⟩
    · cases hhead
      exact .refl _
    · cases hpick
      exact (List.Perm.swap y x left).trans ((ih hmem).cons y)

lemma length_of_mem_picks {n : Nat} (h : (x, others) ∈ picks xs) (hlength : xs.length = n + 1) :
    others.length = n :=
  Nat.succ.inj ((perm_of_mem_picks h).length_eq.trans hlength)

/-- They keep their order. -/
lemma sublist_of_mem_picks (h : (x, others) ∈ picks xs) : others.Sublist xs := by
  induction xs generalizing others with
  | nil => cases h
  | cons y rest ih =>
    rw [picks, List.mem_cons, List.mem_map] at h
    rcases h with hhead | ⟨⟨z, left⟩, hmem, hpick⟩
    · cases hhead
      exact List.sublist_cons_self _ _
    · cases hpick
      exact (ih hmem).cons_cons y

lemma exists_mem_picks (h : x ∈ xs) : ∃ others, (x, others) ∈ picks xs := by
  rw [← map_fst_picks xs, List.mem_map] at h
  obtain ⟨⟨y, others⟩, hmem, rfl⟩ := h
  exact ⟨others, hmem⟩

end Picks

/-! ## All orders -/

section Arrangements

variable {α β : Type} {xs ys : List α} {n : Nat}

lemma arrangements_map (f : α → β) (n : Nat) (xs : List α) :
    arrangements n (xs.map f) = (arrangements n xs).map (List.map f) := by
  induction n generalizing xs with
  | zero => rfl
  | succ n ih =>
    rw [arrangements, picks_map, arrangements, List.map_flatMap, List.flatMap_map]
    refine List.flatMap_congr fun ⟨x, others⟩ _ => ?_
    change (arrangements n (others.map f)).map (f x :: ·) =
      ((arrangements n others).map (x :: ·)).map (List.map f)
    rw [ih, List.map_map, List.map_map]
    rfl

/-- Exactly the rearrangements of a list are listed. -/
lemma mem_arrangements_iff (h : xs.length = n) : ys ∈ arrangements n xs ↔ ys.Perm xs := by
  induction n generalizing xs ys with
  | zero =>
    rw [List.length_eq_zero_iff.1 h, List.perm_nil]
    exact List.mem_singleton
  | succ n ih =>
    rw [arrangements, List.mem_flatMap]
    constructor
    · rintro ⟨⟨x, others⟩, hpick, hys⟩
      obtain ⟨zs, hzs, rfl⟩ := List.mem_map.1 hys
      have hothers := (ih (length_of_mem_picks hpick h)).1 hzs
      exact (hothers.cons x).trans (perm_of_mem_picks hpick)
    · intro hys
      cases ys with
      | nil =>
        rw [← hys.length_eq] at h
        cases h
      | cons y zs =>
        obtain ⟨others, hpick⟩ := exists_mem_picks (hys.subset List.mem_cons_self)
        have hzs : zs.Perm others := (hys.trans (perm_of_mem_picks hpick).symm).cons_inv
        have hmem := (ih (length_of_mem_picks hpick h)).2 hzs
        exact ⟨(y, others), hpick, List.mem_map_of_mem hmem⟩

/-- The orders of an increasing list are listed in lexicographic order. -/
lemma pairwise_arrangements [LT α] (n : Nat) (h : xs.Pairwise (· < ·)) :
    (arrangements n xs).Pairwise (List.Lex (· < ·)) := by
  induction n generalizing xs with
  | zero => exact List.pairwise_singleton _ _
  | succ n ih =>
    rw [arrangements, List.pairwise_flatMap]
    constructor
    · rintro ⟨x, others⟩ hpick
      rw [List.pairwise_map]
      exact (ih (h.sublist (sublist_of_mem_picks hpick))).imp .cons
    · rw [← map_fst_picks xs, List.pairwise_map] at h
      refine h.imp fun hlt ys hys zs hzs => ?_
      obtain ⟨_, _, rfl⟩ := List.mem_map.1 hys
      obtain ⟨_, _, rfl⟩ := List.mem_map.1 hzs
      exact .rel hlt

end Arrangements

/-- The orders of the positions in a list, which are the numbers below its length. -/
def positions (n : Nat) : List (List (Fin n)) := arrangements n (List.finRange n)

/-- Some orders of positions are all there are, each of them once and in lexicographic order. -/
structure IsEnumeration (n : Nat) (orders : List (List (Fin n))) : Prop where
  mem_iff : ∀ order, order ∈ orders ↔ order.Perm (List.finRange n)
  nodup : orders.Nodup
  sorted : orders.Pairwise (List.Lex (· < ·))
  length : orders.length = n.factorial

lemma isEnumeration_positions (n : Nat) : IsEnumeration n (positions n) := by
  have hmem (order : List (Fin n)) : order ∈ positions n ↔ order.Perm (List.finRange n) :=
    mem_arrangements_iff (List.length_finRange)
  have hsorted : (positions n).Pairwise (List.Lex (· < ·)) :=
    pairwise_arrangements n (List.pairwise_lt_finRange n)
  have hnodup : (positions n).Nodup := by
    refine hsorted.imp fun hlex heq => ?_
    subst heq
    exact List.lex_irrefl (fun i : Fin n => Nat.lt_irrefl i.val) _ hlex
  refine ⟨hmem, hnodup, hsorted, ?_⟩
  have hpermutations : (positions n).Perm (List.finRange n).permutations := by
    rw [List.perm_ext_iff_of_nodup hnodup (List.nodup_permutations _ (List.nodup_finRange n))]
    intro order
    rw [hmem, List.mem_permutations]
  rw [hpermutations.length_eq, List.length_permutations, List.length_finRange]

section Orderings

variable {α : Type} {xs ys : List α}

lemma orderings_of_ne_nil (h : xs ≠ []) : orderings xs = arrangements xs.length xs :=
  if_neg (by simpa using h)

lemma mem_orderings_iff (h : xs ≠ []) : ys ∈ orderings xs ↔ ys.Perm xs := by
  rw [orderings_of_ne_nil h, mem_arrangements_iff rfl]

lemma ne_nil_of_mem_orderings (h : xs ≠ []) (hmem : ys ∈ orderings xs) : ys ≠ [] := by
  rintro rfl
  exact h ((mem_orderings_iff h).1 hmem).symm.eq_nil

/-- The orders of a list are those of its positions. -/
lemma orderings_eq_map (h : xs ≠ []) :
    orderings xs = (positions xs.length).map (List.map xs.get) := by
  rw [orderings_of_ne_nil h, positions, ← arrangements_map, List.map_get_finRange]

end Orderings

namespace Amplifier

/-! ## The search -/

/-- What a search through some orders finds if it knows what each of them comes to. -/
inductive Finds (signal? : List Word → Option (Except Error Word)) (orders : List (List Word)) :
    Except Error Best → Prop
  | failed {earlier later : List (List Word)} {order : List Word} {error : Error}
    (horders : orders = earlier ++ order :: later)
    (hearlier : ∀ other ∈ earlier, ∃ value, signal? other = some (.ok value))
    (horder : signal? order = some (.error error)) : Finds signal? orders (.error error)
  | best {earlier later : List (List Word)} {order : List Word} {signal : Word}
    (horders : orders = earlier ++ order :: later)
    (horder : signal? order = some (.ok signal))
    (hearlier : ∀ other ∈ earlier, ∃ value, signal? other = some (.ok value) ∧
      value.toInt < signal.toInt)
    (hlater : ∀ other ∈ later, ∃ value, signal? other = some (.ok value) ∧
      value.toInt ≤ signal.toInt) : Finds signal? orders (.ok ⟨signal, order⟩)

section Finds

variable {signal? : List Word → Option (Except Error Word)} {seen rest : List (List Word)}
  {order : List Word} {b : Best}

/-- All orders have a signal, and none has a greater one than what is best. -/
lemma Finds.le_best (h : Finds signal? seen (.ok b)) :
    ∀ other ∈ seen, ∃ value, signal? other = some (.ok value) ∧
      value.toInt ≤ b.signal.toInt := by
  cases h with
  | best horders horder hearlier hlater =>
    intro other hmem
    rw [horders, List.mem_append, List.mem_cons] at hmem
    rcases hmem with hmem | rfl | hmem
    · obtain ⟨value, hvalue, hlt⟩ := hearlier other hmem
      exact ⟨value, hvalue, Int.le_of_lt hlt⟩
    · exact ⟨_, horder, Int.le_refl _⟩
    · exact hlater other hmem

/-- The first order is the best one so far. -/
lemma Finds.first {signal : Word} (horder : signal? order = some (.ok signal)) :
    Finds signal? [order] (.ok (better none signal order)) :=
  .best (List.nil_append [order]).symm horder (by simp) (by simp)

/-- A further order is better than the best one so far or leaves it the best. -/
lemma Finds.better {signal : Word} (h : Finds signal? seen (.ok b))
    (horder : signal? order = some (.ok signal)) :
    Finds signal? (seen ++ [order]) (.ok (better (some b) signal order)) := by
  change Finds signal? _ (.ok (if b.signal.toInt < signal.toInt then ⟨signal, order⟩ else b))
  split
  next hlt =>
    refine .best rfl horder (fun other hmem => ?_) (by simp)
    obtain ⟨value, hvalue, hle⟩ := h.le_best other hmem
    exact ⟨value, hvalue, Int.lt_of_le_of_lt hle hlt⟩
  next hle =>
    cases h with
    | @best earlier later first _ horders horder' hearlier hlater =>
      have hsplit : seen ++ [order] = earlier ++ first :: (later ++ [order]) := by
        rw [horders, List.append_assoc, List.cons_append]
      refine .best hsplit horder' hearlier fun other hmem => ?_
      rcases List.mem_append.1 hmem with hmem | hmem
      · exact hlater other hmem
      · rw [List.mem_singleton.1 hmem]
        exact ⟨signal, horder, Int.not_lt.1 hle⟩

end Finds

variable {program : Program} {settings : Settings} {a : Amplifier}

/-- Whatever the search has found so far, it goes on to find the best of all orders or the first
failure. -/
lemma exists_bestOf {seen rest : List (List Word)} {b : Best}
    (h : Finds (fun order => runConcurrent ⟨program, order, settings⟩) seen (.ok b))
    (hends : ∀ order ∈ rest, ∃ result, runConcurrent ⟨program, order, settings⟩ = some result) :
    ∃ result, bestOf program settings (some b) rest = some result ∧
      Finds (fun order => runConcurrent ⟨program, order, settings⟩) (seen ++ rest) result := by
  induction rest generalizing seen b with
  | nil =>
    rw [List.append_nil]
    exact ⟨_, rfl, h⟩
  | cons order rest ih =>
    obtain ⟨result, hresult⟩ := hends order List.mem_cons_self
    unfold bestOf
    rw [hresult]
    cases result with
    | error error =>
      refine ⟨_, rfl, .failed rfl (fun other hmem => ?_) hresult⟩
      obtain ⟨value, hvalue, _⟩ := h.le_best other hmem
      exact ⟨value, hvalue⟩
    | ok signal =>
      rw [List.append_cons]
      exact ih (h.better hresult) fun other hmem => hends other (List.mem_cons_of_mem _ hmem)

/-- A search through orders that all come to something finds the best of them or the first
failure. -/
lemma exists_bestOf_none {orders : List (List Word)} (h : orders ≠ [])
    (hends : ∀ order ∈ orders, ∃ result, runConcurrent ⟨program, order, settings⟩ = some result) :
    ∃ result, bestOf program settings none orders = some result ∧
      Finds (fun order => runConcurrent ⟨program, order, settings⟩) orders result := by
  cases orders with
  | nil => exact absurd rfl h
  | cons order rest =>
    obtain ⟨result, hresult⟩ := hends order List.mem_cons_self
    unfold bestOf
    rw [hresult]
    cases result with
    | error error =>
      exact ⟨_, rfl, .failed (List.nil_append (order :: rest)).symm (by simp) hresult⟩
    | ok signal =>
      exact exists_bestOf (.first hresult) fun other hmem =>
        hends other (List.mem_cons_of_mem _ hmem)

/-! ## Amplifiers that come to an end -/

/-- An amplifier whose stages do not wait for each other for ever comes to a signal or an error. -/
lemma exists_runConcurrent (h : a.phases ≠ []) (hblocks : ¬ a.BlocksForever) :
    ∃ result, a.runConcurrent = some result := by
  obtain ⟨_, _, hfinal⟩ := a.endsIn_settle.network
  rcases hfinal.ended_or_idle with hended | ⟨_, hidle⟩
  · exact ⟨_, runConcurrent_of_ended h hended⟩
  · exact absurd (fun l hl => hl.allBlocked (hl.network_eq a.endsIn_settle ▸ hidle)) hblocks

/-- Without feedback stages do not wait for each other for ever. -/
lemma not_blocksForever (h : a.phases ≠ []) (hchain : a.settings.feedback = false) :
    ¬ a.BlocksForever := by
  intro hblocks
  obtain ⟨_, hreaches, hfinal⟩ := a.endsIn_settle.network
  rcases hfinal.ended_or_idle with hended | ⟨hring, _⟩
  · cases (runConcurrent_of_ended h hended).symm.trans (runConcurrent_eq_none h hblocks)
  · rw [(Network.shape_of_reaches hreaches).1] at hring
    cases hchain.symm.trans hring

/-- The search for the best order of phases tries all orders of their positions, each of them once
and in lexicographic order.  If no amplifier that it tries waits for ever, it comes to an end: with
the error of the first order whose amplifier fails, or else with the greatest signal and the first
order that gives it.  There is nothing to order without phases. -/
theorem bestOrder_exhaustive (a : Amplifier) :
    (a.phases = [] → a.bestOrder = some (.error (.settings .nothingToOrder))) ∧
    (a.phases ≠ [] →
      IsEnumeration a.phases.length (positions a.phases.length) ∧
      orderings a.phases = (positions a.phases.length).map (List.map a.phases.get) ∧
      ((∀ order ∈ orderings a.phases, ¬ BlocksForever ⟨a.program, order, a.settings⟩) →
        ∃ result, a.bestOrder = some result ∧
          Finds (fun order => runConcurrent ⟨a.program, order, a.settings⟩) (orderings a.phases)
            result)) := by
  refine ⟨fun hempty => ?_, fun hphases => ⟨isEnumeration_positions _, orderings_eq_map hphases,
    fun hblocks => ?_⟩⟩
  · unfold bestOrder
    rw [hempty]
    rfl
  · have hself : a.phases ∈ orderings a.phases := (mem_orderings_iff hphases).2 (.refl _)
    exact exists_bestOf_none (List.ne_nil_of_mem hself) fun order hmem =>
      exists_runConcurrent (ne_nil_of_mem_orderings hphases hmem) (hblocks order hmem)

/-- Two stages in a row, each of which appends its phase to its signal as a digit. -/
def digits : Amplifier where
  program := ⟨#[3, 15, 3, 16, 1002, 16, 10, 16, 1, 16, 15, 15, 4, 15, 99, 0, 0].map Word.ofCount⟩
  phases := [Word.ofCount 0, Word.ofCount 1]
  settings := {}

/-- The greater digit comes first. -/
theorem bestOrder_exhaustive_digits : digits.phases ≠ [] ∧
    (∀ order ∈ orderings digits.phases,
      ¬ BlocksForever ⟨digits.program, order, digits.settings⟩) ∧
    Finds (fun order => runConcurrent ⟨digits.program, order, digits.settings⟩)
      (orderings digits.phases)
      (.ok ⟨Word.ofCount 10, [Word.ofCount 1, Word.ofCount 0]⟩) := by
  have hphases : digits.phases ≠ [] := by simp [digits]
  have hblocks : ∀ order ∈ orderings digits.phases,
      ¬ BlocksForever ⟨digits.program, order, digits.settings⟩ :=
    fun order hmem => not_blocksForever (ne_nil_of_mem_orderings hphases hmem) rfl
  have hbest : digits.bestOrder =
      some (.ok ⟨Word.ofCount 10, [Word.ofCount 1, Word.ofCount 0]⟩) := by decide +kernel
  obtain ⟨_, _, hsearch⟩ := (bestOrder_exhaustive digits).2 hphases
  obtain ⟨result, hresult, hfinds⟩ := hsearch hblocks
  cases hbest.symm.trans hresult
  exact ⟨hphases, hblocks, hfinds⟩

end Amplifier

end Intcode
