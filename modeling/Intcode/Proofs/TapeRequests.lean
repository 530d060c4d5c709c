import Intcode.Proofs.FaultFrame

/-!
# Requests to a tape

All that can be asked of a tape is to read a word, to write one and to look at one
(`Tape.Request`).  Whatever the order of the requests, the tape answers them as a map from addresses
to words does, which begins with the kept cells and zeros behind them (`EndlessTape.serveAll`).

The tape is a growing run of cells underneath, but nothing of that can be told from the answers.  It
can be told from the number of cells: in the end they reach as far as the farthest place that has
been read or written, and never past the limit unless they did so from the beginning
(`Tape.answers_as_endless`).

The one difference between reading a word and looking at it comes from the capacity.  Reading is
refused where no cell can be kept, and there looking is not.  This takes a limit that is as great as
the capacity (`Tape.not_answers_as_unbounded`).
-/

namespace Intcode

namespace Tape

/-! ## Requests and answers -/

/-- Something that can be asked of a tape. -/
inductive Request where
  /-- Read the word at an address. -/
  | read (address : Word)
  /-- Write a word to an address. -/
  | write (address value : Word)
  /-- Look at the word at an address. -/
  | peek (address : Word)
  deriving DecidableEq

/-- What is answered to a request: a word, nothing to a word that has been written, or the reason
why the address is refused. -/
abbrev Answer : Type := Except Refusal (Option Word)

/-- The place of a word that has been read or written, if the answer does not refuse it. -/
def Request.touches? (answer : Answer) : Request → Option Nat
  | read address | write address _ =>
    match answer with
    | .ok _ => some address.toInt.toNat
    | .error _ => none
  | peek _ => none

/-- The places of all words that have been read or written. -/
def touched (requests : List Request) (answers : List Answer) : List Nat :=
  (requests.zip answers).filterMap fun served => served.1.touches? served.2

/-- The answer to a request, and the tape afterwards. -/
def serve (t : Tape) : Request → Answer × Tape
  | .read address => ((t.read address).1.map some, (t.read address).2)
  | .write address value => ((t.write address value).1.map fun _ => none, (t.write address value).2)
  | .peek address => ((t.peek? address).map some, t)

/-- The answers to some requests, one after another, and the tape afterwards. -/
def serveAll (t : Tape) : List Request → List Answer × Tape
  | [] => ([], t)
  | request :: rest =>
    let (answer, t) := t.serve request
    let (answers, t) := t.serveAll rest
    (answer :: answers, t)

end Tape

namespace EndlessTape

open Tape

/-- The answer to a request, and the endless tape afterwards.  A word can be looked at even where
none can be kept. -/
def serve (e : EndlessTape) : Request → Answer × EndlessTape
  | .read address => ((e.read address).map some, e)
  | .write address value =>
    match e.write address value with
    | .ok e => (.ok none, e)
    | .error refusal => (.error refusal, e)
  | .peek address => ((e.unbounded.read address).map some, e)

/-- The answers to some requests, one after another, and the endless tape afterwards. -/
def serveAll (e : EndlessTape) : List Request → List Answer × EndlessTape
  | [] => ([], e)
  | request :: rest =>
    let (answer, e) := e.serve request
    let (answers, e) := e.serveAll rest
    (answer :: answers, e)

end EndlessTape

namespace Tape

variable {t : Tape} {address value : Word} {place : Nat} {refusal : Refusal}

/-! ## Single requests -/

/-- The word at an address within reach is read from its cell. -/
lemma read_of_reach_ok (h : t.reach address = .ok place) :
    t.read address = (.ok (t.cell place), t.extend place) := by
  unfold read
  rw [h]
  change (Except.ok ((t.extend place).cell place), t.extend place) = _
  rw [cell_extend]

lemma read_of_reach_error (h : t.reach address = .error refusal) :
    t.read address = (.error refusal, t) := by
  unfold read
  rw [h]

lemma write_of_reach_ok (h : t.reach address = .ok place) (value : Word) :
    t.write address value = (.ok (), (t.extend place).put place value) := by
  unfold write
  rw [h]

/-- An address within reach is its own place, and the limit is behind it. -/
lemma place_of_reach_ok (h : t.reach address = .ok place) :
    address.toInt.toNat = place ∧ place < t.limit.toNat := by
  obtain ⟨_, hlt, hplace⟩ := locate_eq_ok_iff.1 (reach_eq_ok_iff.1 h).1
  exact ⟨hplace, hplace ▸ hlt⟩

/-- What is looked at is what the endless tape holds, whether or not a word can be kept there. -/
lemma peek?_eq (t : Tape) (address : Word) : t.peek? address = t.endless.unbounded.read address := by
  have hlimit : t.endless.unbounded.limit = t.limit := rfl
  unfold peek? locate EndlessTape.read EndlessTape.refusal?
  rw [hlimit]
  by_cases hneg : address.toInt < 0
  · rw [if_pos hneg, if_pos hneg]
    rfl
  · by_cases hbeyond : t.limit.toNat ≤ address.toInt.toNat
    · rw [if_neg hneg, if_pos hbeyond, if_neg hneg, if_pos hbeyond]
      rfl
    · rw [if_neg hneg, if_neg hbeyond, if_neg hneg, if_neg hbeyond]
      rfl

/-- A tape answers a request as the endless tape does, and goes on as it does. -/
lemma serve_eq (t : Tape) (request : Request) :
    (t.serve request).1 = (t.endless.serve request).1 ∧
      (t.serve request).2.endless = (t.endless.serve request).2 := by
  cases request with
  | read address =>
    have hread := t.read_eq address
    refine ⟨congrArg (fun answer => answer.1.map some) hread, ?_⟩
    change (t.read address).2.endless = t.endless
    rw [hread, endless_pad]
  | write address value =>
    obtain ⟨hanswer, hshown⟩ := t.write_eq address value
    simp only [serve, EndlessTape.serve]
    rw [hanswer, hshown]
    cases t.endless.write address value with
    | error refusal => exact ⟨rfl, rfl⟩
    | ok e => exact ⟨rfl, rfl⟩
  | peek address => exact ⟨congrArg (Except.map some) (t.peek?_eq address), rfl⟩

/-- A request touches nothing and leaves the tape as it is, or it touches a place below the limit
and makes the tape grow as far as that. -/
lemma serve_cases (t : Tape) (request : Request) :
    request.touches? (t.serve request).1 = none ∧ (t.serve request).2 = t ∨
      ∃ place, request.touches? (t.serve request).1 = some place ∧ place < t.limit.toNat ∧
        (t.serve request).2.size = max t.size (place + 1) ∧
          (t.serve request).2.limit = t.limit := by
  cases request with
  | read address =>
    simp only [serve]
    cases hreach : t.reach address with
    | error refusal =>
      rw [read_of_reach_error hreach]
      exact Or.inl ⟨rfl, rfl⟩
    | ok place =>
      obtain ⟨hplace, hlt⟩ := place_of_reach_ok hreach
      rw [read_of_reach_ok hreach]
      exact Or.inr ⟨place, congrArg some hplace, hlt, t.size_extend place, t.limit_extend place⟩
  | write address value =>
    simp only [serve]
    cases hreach : t.reach address with
    | error refusal =>
      rw [write_of_reach_error hreach]
      exact Or.inl ⟨rfl, rfl⟩
    | ok place =>
      obtain ⟨hplace, hlt⟩ := place_of_reach_ok hreach
      rw [write_of_reach_ok hreach]
      refine Or.inr ⟨place, congrArg some hplace, hlt, ?_, ?_⟩
      · exact (size_put _ _ _).trans (t.size_extend place)
      · exact (limit_put _ _ _).trans (t.limit_extend place)
  | peek address => exact Or.inl ⟨rfl, rfl⟩

/-- A request that is refused leaves the tape as it is. -/
lemma serve_of_refused {request : Request} (h : (t.serve request).1 = .error refusal) :
    (t.serve request).2 = t := by
  have hnone : request.touches? (t.serve request).1 = none := by
    rw [h]
    cases request <;> rfl
  rcases t.serve_cases request with ⟨_, hsame⟩ | ⟨place, hsome, _⟩
  · exact hsame
  · rw [hnone] at hsome
    cases hsome

/-- A word that has been written is seen at its address, and everything else as before. -/
lemma peek?_write (h : (t.write address value).1 = .ok ()) (other : Word) :
    (t.write address value).2.peek? other =
      if other = address then .ok value else t.peek? other := by
  cases hreach : t.reach address with
  | error refusal =>
    rw [write_of_reach_error hreach] at h
    cases h
  | ok place =>
    rw [write_of_reach_ok hreach]
    by_cases hother : other = address
    · rw [if_pos hother, hother, peek?_put hreach]
    · have hlimit : ((t.extend place).put place value).limit = t.limit :=
        (limit_put _ _ _).trans (t.limit_extend place)
      have hkept : place < (t.extend place).size := by
        rw [size_extend]
        omega
      unfold peek?
      rw [if_neg hother, locate_congr hlimit]
      cases hlocate : t.locate other with
      | error refusal => rfl
      | ok place' =>
        -- Addresses that are not negative are told apart by their places.
        have hne : place ≠ place' := by
          obtain ⟨hneg, _, hplace⟩ := locate_eq_ok_iff.1 (reach_eq_ok_iff.1 hreach).1
          obtain ⟨hneg', _, hplace'⟩ := locate_eq_ok_iff.1 hlocate
          intro hsame
          exact hother (Word.ext_toInt (by omega))
        change Except.ok (((t.extend place).put place value).cell place') = .ok (t.cell place')
        rw [cell_put _ hkept, if_neg hne, cell_extend]

/-- Reading answers what is seen, except where no cell can be kept. -/
lemma read_eq_peek? (t : Tape) (address : Word) :
    (t.read address).1 = t.peek? address ∨
      (t.read address).1 = .error (.beyondCapacity address) ∧
        t.peek? address = .ok (t.cell address.toInt.toNat) ∧
          capacity ≤ address.toInt.toNat + 1 ∧ address.toInt.toNat < t.limit.toNat := by
  unfold read reach peek?
  cases hlocate : t.locate address with
  | error refusal => exact Or.inl rfl
  | ok place =>
    obtain ⟨_, hlt, hplace⟩ := locate_eq_ok_iff.1 hlocate
    dsimp only
    by_cases hcapacity : capacity ≤ place + 1
    · rw [if_pos hcapacity, ← hplace]
      exact Or.inr ⟨rfl, rfl, hplace ▸ hcapacity, hlt⟩
    · rw [if_neg hcapacity]
      refine Or.inl (congrArg Except.ok ?_)
      exact t.cell_extend place place

/-! ## Sequences of requests -/

lemma serveAll_cons (t : Tape) (request : Request) (rest : List Request) :
    t.serveAll (request :: rest) =
      ((t.serve request).1 :: ((t.serve request).2.serveAll rest).1,
        ((t.serve request).2.serveAll rest).2) := rfl

/-- A tape answers requests as the endless tape does, and goes on as it does. -/
lemma serveAll_eq (t : Tape) (requests : List Request) :
    (t.serveAll requests).1 = (t.endless.serveAll requests).1 ∧
      (t.serveAll requests).2.endless = (t.endless.serveAll requests).2 := by
  induction requests generalizing t with
  | nil => exact ⟨rfl, rfl⟩
  | cons request rest ih =>
    obtain ⟨hanswer, hshown⟩ := t.serve_eq request
    obtain ⟨hanswers, hend⟩ := ih (t.serve request).2
    rw [hshown] at hanswers hend
    rw [serveAll_cons, hanswer, hanswers, hend]
    exact ⟨rfl, rfl⟩

lemma touched_cons (request : Request) (requests : List Request) (answer : Answer)
    (answers : List Answer) :
    touched (request :: requests) (answer :: answers) =
      (request.touches? answer).toList ++ touched requests answers := by
  unfold touched
  rw [List.zip_cons_cons, List.filterMap_cons]
  cases request.touches? answer <;> rfl

/-- A tape ends up as large as it was at first, or as it takes for the farthest place that has been
touched. -/
lemma size_serveAll (t : Tape) (requests : List Request) :
    (t.serveAll requests).2.size =
      (touched requests (t.serveAll requests).1).foldl (fun size place => max size (place + 1))
        t.size := by
  induction requests generalizing t with
  | nil => rfl
  | cons request rest ih =>
    rw [serveAll_cons, touched_cons, ih (t.serve request).2]
    rcases t.serve_cases request with ⟨hnone, hsame⟩ | ⟨place, hsome, _, hsize, _⟩
    · rw [hnone, hsame]
      rfl
    · rw [hsome, hsize]
      rfl

/-- No tape grows past its limit. -/
lemma size_serveAll_le (t : Tape) (requests : List Request) :
    (t.serveAll requests).2.size ≤ max t.size t.limit.toNat := by
  induction requests generalizing t with
  | nil => exact Nat.le_max_left _ _
  | cons request rest ih =>
    rw [serveAll_cons]
    have hrest := ih (t.serve request).2
    rcases t.serve_cases request with ⟨_, hsame⟩ | ⟨place, _, hlt, hsize, hlimit⟩
    · rwa [hsame] at hrest ⊢
    · rw [hsize, hlimit] at hrest
      change ((t.serve request).2.serveAll rest).2.size ≤ _
      omega

/-! ## Tapes as maps -/

/-- The tape goes on like a map from addresses to words.  Reading fits in with that except where no
cell can be kept. -/
structure ActsAsMap (t : Tape) : Prop where
  /-- A word that is written is seen at its address, and everything else as before. -/
  written : ∀ address value, (t.write address value).1 = .ok () → ∀ other,
    (t.write address value).2.peek? other = if other = address then .ok value else t.peek? other
  /-- A request that is refused changes nothing. -/
  refused : ∀ request refusal, (t.serve request).1 = .error refusal → (t.serve request).2 = t
  /-- Looking at a word changes nothing. -/
  seen : ∀ address, (t.serve (.peek address)).2 = t
  /-- What is read is what is seen, with the same refusal if there is one. -/
  read : ∀ address, (t.read address).1 = t.peek? address ∨
    (t.read address).1 = .error (.beyondCapacity address) ∧
      t.peek? address = .ok (t.cell address.toInt.toNat) ∧
        capacity ≤ address.toInt.toNat + 1 ∧ address.toInt.toNat < t.limit.toNat

lemma actsAsMap (t : Tape) : t.ActsAsMap where
  written _ _ h := peek?_write h
  refused _ _ h := serve_of_refused h
  seen _ := rfl
  read := t.read_eq_peek?

/-- Whatever a tape is asked for, it answers as the endless tape does which shows the same, and in
the end it shows what that one holds and goes on like a map.  Its cells reach as far as the farthest
place that has been touched, and not past the limit unless they did so from the beginning. -/
theorem answers_as_endless (t : Tape) (requests : List Request) :
    (t.serveAll requests).1 = (t.endless.serveAll requests).1 ∧
      (t.serveAll requests).2.endless = (t.endless.serveAll requests).2 ∧
        (t.serveAll requests).2.ActsAsMap ∧
          (t.serveAll requests).2.size =
            (touched requests (t.serveAll requests).1).foldl
              (fun size place => max size (place + 1)) t.size ∧
          (t.serveAll requests).2.size ≤ max t.size t.limit.toNat :=
  ⟨(t.serveAll_eq requests).1, (t.serveAll_eq requests).2, actsAsMap _, t.size_serveAll requests,
    t.size_serveAll_le requests⟩

-- A cell behind the limit is refused although it is kept, and looking at a word keeps nothing.
example : (serveAll ⟨#[.minusOne, 1], 1⟩ [.read 1, .peek 0, .write 0 1, .read 0]).1 =
    [.error (.beyondLimit 1 1), .ok (some .minusOne), .ok none, .ok (some 1)] := by rfl

/-- A tape whose limit is the greatest number there is. -/
def vast : Tape := ⟨#[], 18446744073709551615⟩

/-- The address of the first cell that no tape can keep. -/
def farthest : Word := .ofCount 1152921504606846975

/-- Tapes do not answer as they would if there were no bound on the cells that can be kept. -/
theorem not_answers_as_unbounded :
    ¬ ∀ (t : Tape) (requests : List Request),
      (t.serveAll requests).1 = (t.endless.unbounded.serveAll requests).1 := by
  intro h
  have hanswers : (vast.serveAll [.read farthest]).1 = [.error (.beyondCapacity farthest)] := rfl
  have hunbounded : (vast.endless.unbounded.serveAll [.read farthest]).1 = [.ok (some 0)] := rfl
  have hequal := h vast [.read farthest]
  rw [hanswers, hunbounded] at hequal
  cases hequal

end Tape

end Intcode
