import Intcode.Proofs.Completion

/-!
# What faults leave alone

An instruction that faults changes next to nothing (`fault_frame`).  The tape may have grown, but
only by zeros and only below its limit (`Tape.Grown`), so that the memory looks the same everywhere.
The queue of inputs stays as it is, too, with one exception: an input instruction takes its value
before the memory is asked for a place, and if the memory refuses the value (`Machine.Refuses`) it
has been taken nevertheless, from the queue or, if there was none, from the port.

That an instruction does nothing but read before it is carried out (`Access.IsReading`) makes the
growth a matter of single words.
-/

namespace Intcode

/-! ## Growth -/

namespace Tape

variable {t t' t'' : Tape}

/-- The second tape is the first one with zeros behind it, none of them at the limit or above. -/
def Grown (t t' : Tape) : Prop := ∃ n, n ≤ max t.size t.limit.toNat ∧ t' = t.pad n

lemma size_pad (t : Tape) (n : Nat) : (t.pad n).size = max t.size n := by
  unfold pad size
  rw [Array.size_append, Array.size_replicate]
  omega

lemma Grown.rfl : t.Grown t :=
  ⟨0, Nat.zero_le _, (t.pad_eq_self (Nat.zero_le _)).symm⟩

lemma Grown.trans (h : t.Grown t') (h' : t'.Grown t'') : t.Grown t'' := by
  obtain ⟨a, ha, rfl⟩ := h
  obtain ⟨b, hb, rfl⟩ := h'
  rw [size_pad, limit_pad] at hb
  refine ⟨max a b, ?_, t.pad_pad a b⟩
  omega

/-- A tape grows when it is extended for a place that is within reach. -/
lemma grown_extend {address : Word} {place : Nat} (h : t.reach address = .ok place) :
    t.Grown (t.extend place) := by
  obtain ⟨_, hlt, hplace⟩ := locate_eq_ok_iff.1 (reach_eq_ok_iff.1 h).1
  refine ⟨place + 1, ?_, t.extend_eq_pad place⟩
  omega

lemma Grown.limit_eq (h : t.Grown t') : t'.limit = t.limit := by
  obtain ⟨n, _, rfl⟩ := h
  exact t.limit_pad n

lemma Grown.size_le (h : t.Grown t') : t.size ≤ t'.size := by
  obtain ⟨n, _, rfl⟩ := h
  rw [size_pad]
  exact Nat.le_max_left _ _

lemma Grown.size_le_max (h : t.Grown t') : t'.size ≤ max t.size t.limit.toNat := by
  obtain ⟨n, hn, rfl⟩ := h
  rw [size_pad]
  exact Nat.max_le.2 ⟨Nat.le_max_left _ _, hn⟩

/-- Growth cannot be seen. -/
lemma Grown.peek?_eq (h : t.Grown t') (address : Word) : t'.peek? address = t.peek? address := by
  obtain ⟨n, _, rfl⟩ := h
  have hcell : (t.pad n).cell = t.cell := funext (t.cell_pad n)
  unfold peek?
  rw [locate_congr (t.limit_pad n), hcell]

end Tape

namespace Access

variable {α : Type} {x : Access α}

/-- Reading single words makes the tape grow and does nothing else to it. -/
lemma IsReading.grown (h : IsReading x) (t : Tape) : t.Grown (x.run t).2 := by
  induction h generalizing t with
  | pure a => exact .rfl
  | throw fault => exact .rfl
  | read ip address =>
    cases hreach : t.reach address with
    | error refusal =>
      simp only [Access.read, ExceptT.run, Tape.read, hreach]
      exact .rfl
    | ok place =>
      simp only [Access.read, ExceptT.run, Tape.read, hreach]
      exact Tape.grown_extend hreach
  | @bind α β x f hx hf ihx ihf =>
    have hfirst := ihx t
    rw [run_bind]
    rcases hrun : x.run t with ⟨fault | a, t'⟩
    · rw [hrun] at hfirst
      exact hfirst
    · rw [hrun] at hfirst
      exact hfirst.trans (ihf a t')

end Access

namespace Machine

variable {σ : Type} {m m' : Machine} {port : Port σ} {s s' : σ} {fault : Fault} {refusal : Refusal}

/-- The cells that an instruction reads are within the limit. -/
lemma grown_prepared (m : Machine) : m.tape.Grown m.prepared.tape :=
  (Access.isReading_prepare m.ip m.relativeBase).grown m.tape

/-- Memory looks the same after some growth. -/
lemma peek?_of_grown (h : m.tape.Grown m'.tape) (hip : m'.ip = m.ip) (address : Word) :
    m'.peek? address = m.peek? address := by
  unfold peek?
  rw [h.peek?_eq, hip]

/-! ## Values that are refused -/

/-- The machine is about to take an input for which there is no place, and the port does not fail
before if it is asked for it. -/
def Refuses (port : Port σ) (m : Machine) (s : σ) (refusal : Refusal) : Prop :=
  m.IsReady ∧ m.LacksPlace refusal ∧
    (m.inputs = [] → ∀ fault, (port.receive s).1 ≠ .error fault)

/-- A single value has been taken: the first one of the queue or, if there was none, one that the
port has given. -/
def TakesOne (port : Port σ) (m : Machine) (s : σ) (m' : Machine) (s' : σ) : Prop :=
  (∃ value, m.inputs = value :: m'.inputs ∧ s' = s) ∨
    m.inputs = [] ∧ m'.inputs = [] ∧ ∃ value, port.receive s = (.ok (some value), s')

/-- A fault over a value that is refused says so, and the value is lost. -/
lemma Faults.takesOne (h : Faults port m s fault m' s') (hrefuses : Refuses port m s refusal) :
    fault = refusal.fault m.ip ∧ TakesOne port m s m' s' := by
  obtain ⟨hready, ⟨j, place, hasks, hlacks⟩, hanswers⟩ := hrefuses
  cases h with
  | exhausted hhalted hlimit => exact absurd hlimit hready.not_exhausted
  | unreadable _ hrequest | unstored _ hrequest | unsent _ hrequest =>
    rw [hasks] at hrequest
    cases hrequest
  | spilled _ hrequest hinputs hreach =>
    rw [hasks] at hrequest
    cases hrequest
    rw [hlacks] at hreach
    cases hreach
    exact ⟨rfl, Or.inl ⟨_, hinputs, rfl⟩⟩
  | dropped _ hrequest hinputs hreceive hreach =>
    rw [hasks] at hrequest
    cases hrequest
    rw [hlacks] at hreach
    cases hreach
    exact ⟨rfl, Or.inr ⟨hinputs, hinputs, _, hreceive⟩⟩
  | unanswered _ hrequest hinputs hreceive =>
    exact absurd (congrArg Prod.fst hreceive) (hanswers hinputs _)

/-- A fault over anything else leaves the queue as it was. -/
lemma Faults.inputs_eq (h : Faults port m s fault m' s')
    (hrefuses : ∀ refusal, ¬ Refuses port m s refusal) : m'.inputs = m.inputs := by
  cases h with
  | @spilled i target value rest refusal hready hrequest hinputs hreach =>
    have hqueued : m.inputs ≠ [] := by
      rw [hinputs]
      exact List.cons_ne_nil _ _
    exact absurd ⟨hready, ⟨i, target, hrequest, hreach⟩, fun hempty => absurd hempty hqueued⟩
      (hrefuses refusal)
  | exhausted | unreadable | unstored | dropped | unanswered | unsent => rfl

/-! ## The frame of a fault -/

/-- A fault makes the tape grow and does nothing else to it. -/
lemma Faults.grown (h : Faults port m s fault m' s') : m.tape.Grown m'.tape := by
  cases h with
  | exhausted => exact .rfl
  | unreadable | unstored | spilled | dropped | unanswered | unsent => exact m.grown_prepared

/-- A fault changes nothing but the tape and the queue. -/
lemma Faults.machine_eq (h : Faults port m s fault m' s') :
    m' = { m with tape := m'.tape, inputs := m'.inputs } := by
  cases h <;> rfl

/-- An instruction that faults changes nothing but the tape and the queue.  The tape may have gained
zeros below its limit, which nobody can see.  The queue stays as it was, unless an input was refused
its place: then a single value has been taken from the queue or from the port. -/
theorem fault_frame (h : m.execute port s = ⟨.error fault, m', s'⟩) :
    m' = { m with tape := m'.tape, inputs := m'.inputs } ∧
      (∀ address, m'.peek? address = m.peek? address) ∧ m.tape.Grown m'.tape ∧
        (∀ refusal, Refuses port m s refusal →
          fault = refusal.fault m.ip ∧ TakesOne port m s m' s') ∧
          ((∀ refusal, ¬ Refuses port m s refusal) → m'.inputs = m.inputs) := by
  have hfaults := faults_of_execute_eq h
  have hip : m'.ip = m.ip := by rw [hfaults.machine_eq]
  exact ⟨hfaults.machine_eq, peek?_of_grown hfaults.grown hip, hfaults.grown,
    fun refusal => hfaults.takesOne, hfaults.inputs_eq⟩

/-- A machine whose only word asks for an input to be put below the first cell.  The parameter is
behind the end of the tape. -/
def straying : Machine := { boot ⟨#[Word.ofCount 203]⟩ {} with relativeBase := .minusOne }

/-- The value that the port gives to `straying` is lost, and the tape has got a second cell. -/
theorem fault_frame_straying :
    ∃ m', straying.execute Port.buffered ⟨[1], #[]⟩ =
        ⟨.error (.negativeAddress .minusOne 0), m', ⟨[], #[]⟩⟩ ∧
      m'.tape.size = 2 ∧ (∀ address, m'.peek? address = straying.peek? address) ∧
        Refuses Port.buffered straying ⟨[1], #[]⟩ (.negative .minusOne) ∧
          TakesOne Port.buffered straying ⟨[1], #[]⟩ m' ⟨[], #[]⟩ := by
  have hfault : straying.execute Port.buffered ⟨[1], #[]⟩ =
      ⟨.error (.negativeAddress .minusOne 0), straying.prepared, ⟨[], #[]⟩⟩ := rfl
  have hrefuses : Refuses Port.buffered straying ⟨[1], #[]⟩ (.negative .minusOne) :=
    ⟨⟨by decide, by decide⟩, ⟨_, .minusOne, rfl, rfl⟩, fun _ fault hfails => nomatch hfails⟩
  obtain ⟨_, hpeek, _, htakes, _⟩ := fault_frame hfault
  exact ⟨straying.prepared, hfault, rfl, hpeek, hrefuses, (htakes _ hrefuses).2⟩

end Machine

end Intcode
