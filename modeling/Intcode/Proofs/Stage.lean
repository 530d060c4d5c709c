import Intcode.Proofs.Network
import Intcode.Proofs.StepRefinement

/-!
# Machines as processes

What a machine does next depends on what it shows, its status apart, as long as it has not halted;
so machines on endless tapes are processes.  The lemmas on `Machine.execute` say how a machine in
front of a port carries out the reaction of the process that it is.

A machine never faults over a closed channel by itself: that fault comes from its port.
-/

namespace Intcode

namespace EndlessMachine

/-- The machine with its status forgotten. -/
def calm (x : EndlessMachine) : EndlessMachine := { x with status := .running }

/-- What a machine that has not halted does next.  It uses up its own queue before it asks for a
value. -/
def reaction (x : EndlessMachine) : Reaction EndlessMachine :=
  match x.react with
  | .error fault => .stop (.error fault)
  | .ok (.go next) => .go next.calm
  | .ok (.halt next) => .stop (.ok next.lastOutput)
  | .ok (.emit value next) => .emit value next.calm
  | .ok (.ask resume) =>
    match x.inputs with
    | value :: rest =>
      match resume value with
      | .ok next => .go { next with inputs := rest }.calm
      | .error fault => .stop (.error fault)
    | [] => .ask fun value => (resume value).map fun next => { next with inputs := [] }.calm

instance : Process EndlessMachine := ⟨reaction⟩

/-! ## A machine's own faults -/

/-- Something that does not fail over a closed channel. -/
def Owns {α : Type} (r : Except Fault α) : Prop := r ≠ .error .channelClosed

section Owns

variable {α β : Type} (m : EndlessMachine) (i : Instruction)

lemma owns_ok (a : α) : Owns (.ok a) := by
  intro h
  cases h

lemma Owns.bind {r : Except Fault α} {f : α → Except Fault β} (hr : Owns r)
    (hf : ∀ a, Owns (f a)) : Owns (r >>= f) := by
  cases r with
  | error fault =>
    intro h
    cases h
    exact hr rfl
  | ok a => exact hf a

lemma owns_of_refusal (ip : UInt64) (r : Except Refusal α) :
    Owns (r.mapError (Refusal.fault ip)) := by
  intro h
  rcases r with refusal | a
  · cases refusal <;> cases h
  · cases h

lemma owns_load (address : Word) : Owns (m.load address) := owns_of_refusal m.ip _

lemma owns_exact (result : Option Word) : Owns (m.exact result) := by
  intro h
  cases result <;> cases h

lemma owns_parameter (k : Nat) : Owns (m.parameter k) := owns_load m _

lemma owns_operand (k : Nat) : Owns (m.operand i k) := by
  refine (owns_parameter m k).bind fun param => ?_
  cases i.mode k with
  | position => exact owns_load m param
  | immediate => exact owns_ok param
  | relative => exact (owns_exact m _).bind fun address => owns_load m address

lemma owns_target (k : Nat) : Owns (m.target i k) := by
  refine (owns_parameter m k).bind fun param => ?_
  cases i.mode k with
  | position => exact owns_ok param
  | immediate => exact owns_ok param
  | relative => exact owns_exact m _

lemma owns_fetch : Owns m.fetch := by
  refine (owns_load m _).bind fun word => ?_
  intro h
  cases hdecode : Instruction.decode word <;> rw [hdecode] at h <;> cases h

lemma owns_store (ip : UInt64) (target value : Word) : Owns (m.store i ip target value) :=
  (owns_of_refusal m.ip _).bind fun _ => owns_ok _

/-- An instruction that does not fault over a closed channel, nor over a value that it has asked
for. -/
def OwnsEffect (r : Except Fault Effect) : Prop :=
  Owns r ∧ ∀ resume, r = .ok (.ask resume) → ∀ value, Owns (resume value)

lemma Owns.bind_effect {r : Except Fault α} {f : α → Except Fault Effect} (hr : Owns r)
    (hf : ∀ a, OwnsEffect (f a)) : OwnsEffect (r >>= f) := by
  refine ⟨hr.bind fun a => (hf a).1, fun resume h => ?_⟩
  cases r with
  | error fault => cases h
  | ok a => exact (hf a).2 resume h

lemma ownsEffect_go (next : EndlessMachine) : OwnsEffect (.ok (.go next)) := by
  refine ⟨owns_ok _, fun resume h => ?_⟩
  cases h

lemma ownsEffect_compute (operation : Word → Word → Option Word) :
    OwnsEffect (m.compute i operation) :=
  (owns_operand m i 0).bind_effect fun _ => (owns_operand m i 1).bind_effect fun _ =>
    (owns_exact m _).bind_effect fun _ => (owns_target m i 2).bind_effect fun _ =>
      (owns_store m i _ _ _).bind_effect ownsEffect_go

lemma ownsEffect_branch (test : Word → Bool) : OwnsEffect (m.branch i test) := by
  refine (owns_operand m i 0).bind_effect fun condition =>
    (owns_operand m i 1).bind_effect fun destination => ?_
  split
  · split
    · exact ownsEffect_go _
    · refine ⟨fun h => ?_, fun resume h => ?_⟩ <;> cases h
  · exact ownsEffect_go _

lemma ownsEffect_effect : OwnsEffect (m.effect i) := by
  unfold effect
  cases i.opcode with
  | add => exact ownsEffect_compute m i _
  | mul => exact ownsEffect_compute m i _
  | lessThan => exact ownsEffect_compute m i _
  | equals => exact ownsEffect_compute m i _
  | jumpIfTrue => exact ownsEffect_branch m i _
  | jumpIfFalse => exact ownsEffect_branch m i _
  | input =>
    refine (owns_target m i 0).bind_effect fun target => ⟨owns_ok _, fun resume h => ?_⟩
    cases h
    exact owns_store m i _ target
  | output =>
    refine (owns_operand m i 0).bind_effect fun value => ⟨owns_ok _, fun resume h => ?_⟩
    cases h
  | adjustRelativeBase =>
    exact (owns_operand m i 0).bind_effect fun _ => (owns_exact m _).bind_effect fun _ =>
      ownsEffect_go _
  | halt =>
    refine ⟨owns_ok _, fun resume h => ?_⟩
    cases h

/-- An instruction does not fault over a closed channel. -/
lemma ownsEffect_react : OwnsEffect m.react := by
  unfold react
  split
  · refine ⟨fun h => ?_, fun resume h => ?_⟩ <;> cases h
  · exact (owns_fetch m).bind_effect fun i => ownsEffect_effect m i

/-- A machine does not end over a closed channel by itself. -/
lemma ne_channelClosed_of_stop (x : EndlessMachine) {fault : Fault}
    (h : x.reaction = .stop (.error fault)) : fault ≠ .channelClosed := by
  rintro rfl
  have hreact := ownsEffect_react x
  unfold reaction at h
  split at h
  · next hfault =>
    cases h
    exact hreact.1 hfault
  · cases h
  · cases h
  · cases h
  · next resume hask =>
    split at h
    · next value rest hinputs =>
      cases hresume : resume value with
      | ok next =>
        rw [hresume] at h
        cases h
      | error fault =>
        rw [hresume] at h
        cases h
        exact hreact.2 resume hask value hresume
    · cases h

/-- A machine does not end over a closed channel when it gets a value. -/
lemma ne_channelClosed_of_ask (x : EndlessMachine) {resume : Word → Except Fault EndlessMachine}
    {value : Word} {fault : Fault} (h : x.reaction = .ask resume)
    (hresume : resume value = .error fault) : fault ≠ .channelClosed := by
  rintro rfl
  have hreact := ownsEffect_react x
  unfold reaction at h
  split at h
  · cases h
  · cases h
  · cases h
  · cases h
  · next taken hask =>
    split at h
    · next value rest hinputs =>
      cases htaken : taken value <;> rw [htaken] at h <;> cases h
    · cases h
      change (taken value).map _ = _ at hresume
      cases htaken : taken value with
      | ok next =>
        rw [htaken] at hresume
        cases hresume
      | error fault =>
        rw [htaken] at hresume
        cases hresume
        exact hreact.2 taken hask value htaken

end Owns

end EndlessMachine

namespace Machine

/-! ## Machines in front of ports -/

/-- The process that a machine is. -/
def core (m : Machine) : EndlessMachine := m.endless.calm

end Machine

/-- How a machine has come to its end with a turn, if it has. -/
def Turn.ending? {σ : Type} (turn : Turn Status σ) : Option (Except Fault (Option Word)) :=
  match turn.answer with
  | .ok .halted => some (.ok turn.machine.lastOutput)
  | .ok _ => none
  | .error fault => some (.error fault)

lemma Turn.ending?_of_error {σ : Type} {turn : Turn Status σ} {fault : Fault}
    (h : turn.answer = .error fault) : turn.ending? = some (.error fault) := by
  unfold ending?
  rw [h]

lemma Turn.ending?_of_halted {σ : Type} {turn : Turn Status σ} (h : turn.answer = .ok .halted) :
    turn.ending? = some (.ok turn.machine.lastOutput) := by
  unfold ending?
  rw [h]

lemma Turn.ending?_of_ok {σ : Type} {turn : Turn Status σ} {status : Status}
    (h : turn.answer = .ok status) (hstatus : status ≠ .halted) : turn.ending? = none := by
  unfold ending?
  rw [h]
  cases status with
  | halted => exact absurd rfl hstatus
  | running => rfl
  | needsInput => rfl
  | hasOutput value => rfl

lemma Turn.exists_status_of_ending?_eq_none {σ : Type} {turn : Turn Status σ}
    (h : turn.ending? = none) : ∃ status, turn.answer = .ok status ∧ status ≠ .halted := by
  unfold ending? at h
  rcases hanswer : turn.answer with fault | status
  · rw [hanswer] at h
    cases h
  · refine ⟨status, rfl, ?_⟩
    rintro rfl
    rw [hanswer] at h
    cases h

/-- The node that a machine is after a turn, with the values that wait for it then. -/
def Turn.node {σ : Type} (turn : Turn Status σ) (waiting : List Word) : Node EndlessMachine :=
  match turn.ending? with
  | none => .live turn.machine.core waiting
  | some ending => .ended ending

lemma Turn.node_of_ending? {σ : Type} {turn : Turn Status σ}
    {ending : Except Fault (Option Word)} (h : turn.ending? = some ending) (waiting : List Word) :
    turn.node waiting = .ended ending := by
  unfold node
  rw [h]

lemma Turn.node_of_error {σ : Type} {turn : Turn Status σ} {fault : Fault}
    (h : turn.answer = .error fault) (waiting : List Word) :
    turn.node waiting = .ended (.error fault) :=
  node_of_ending? (ending?_of_error h) waiting

lemma Turn.node_of_ok {σ : Type} {turn : Turn Status σ} {status : Status}
    (h : turn.answer = .ok status) (hstatus : status ≠ .halted) (waiting : List Word) :
    turn.node waiting = .live turn.machine.core waiting := by
  unfold node
  rw [ending?_of_ok h hstatus]

lemma Turn.deliver_node {σ : Type} (turn : Turn Status σ) (waiting values : List Word) :
    (turn.node waiting).deliver values = turn.node (waiting ++ values) := by
  unfold node
  cases turn.ending? with
  | none => rfl
  | some ending => rfl

/-- The turn of a machine that has got a value: it goes on or faults over the value. -/
def Turn.Resumes {σ : Type} (turn : Turn Status σ) (s : σ) : Except Fault EndlessMachine → Prop
  | .ok next => turn.answer = .ok .running ∧ turn.machine.core = next ∧ turn.port = s
  | .error fault => turn.answer = .error fault ∧ turn.port = s

/-- The turn of a machine in front of a port carries out what its process does next: it stops, goes
on, sends a value, or asks the port for a value and goes on with it. -/
def Turn.Carries {σ : Type} (port : Port σ) (m : Machine) (s : σ) (turn : Turn Status σ) :
    Reaction EndlessMachine → Prop
  | .stop ending => turn.ending? = some ending ∧ turn.port = s
  | .go next => turn.answer = .ok .running ∧ turn.machine.core = next ∧ turn.port = s
  | .emit value next => ∀ s', port.send value s = (.ok (), s') →
    turn.answer = .ok (.hasOutput value) ∧ turn.machine.core = next ∧ turn.port = s'
  | .ask resume =>
    match port.receive s with
    | (.ok (some value), s') => turn.Resumes s' (resume value)
    | (.ok none, s') =>
      turn.answer = .ok .needsInput ∧ turn.machine.core = m.core ∧ turn.port = s'
    | (.error fault, s') => turn.answer = .error fault ∧ turn.port = s'

namespace Machine

open EndlessMachine

variable {σ : Type} {m : Machine}

/-- What a turn is made of, told from what it shows. -/
lemma eq_of_endless_turn {turn : Turn Status σ} {answer : Except Fault Status}
    {x : EndlessMachine} {s : σ} (h : turn.endless = (answer, x, s)) :
    turn.answer = answer ∧ turn.machine.endless = x ∧ turn.port = s := by
  obtain ⟨hanswer, hrest⟩ := Prod.mk.inj h
  exact ⟨hanswer, Prod.mk.inj hrest⟩

/-- A turn that shows a machine going on with a value. -/
lemma resumes_of_receive {turn : Turn Status σ} {x : EndlessMachine}
    {resumed : Except Fault EndlessMachine} {s : σ} (h : turn.endless = x.receive resumed s) :
    turn.Resumes s (resumed.map fun next => { next with inputs := x.inputs }.calm) := by
  cases resumed with
  | error fault =>
    obtain ⟨hanswer, _, hport⟩ := eq_of_endless_turn h
    exact ⟨hanswer, hport⟩
  | ok next =>
    obtain ⟨hanswer, hshown, hport⟩ := eq_of_endless_turn h
    have hcore := congrArg calm hshown
    exact ⟨hanswer, hcore, hport⟩

/-- A machine that has not halted carries out what its process does next. -/
lemma carries_execute (hm : m.status ≠ .halted) (port : Port σ) (s : σ) :
    (m.execute port s).Carries port m s m.core.reaction := by
  have hexecute : (m.execute port s).endless = carryOut port m.endless m.endless.react s :=
    (endless_execute port m s).trans (if_neg hm)
  have hreact : m.core.react = m.endless.react := rfl
  generalize m.execute port s = turn at hexecute ⊢
  unfold reaction
  rw [hreact]
  generalize m.endless.react = outcome at hexecute ⊢
  rcases outcome with fault | (next | next | ⟨value, next⟩ | resume)
  · obtain ⟨hanswer, _, hport⟩ := eq_of_endless_turn hexecute
    exact ⟨Turn.ending?_of_error hanswer, hport⟩
  · obtain ⟨hanswer, hshown, hport⟩ := eq_of_endless_turn hexecute
    have hcore := congrArg calm hshown
    exact ⟨hanswer, hcore, hport⟩
  · obtain ⟨hanswer, hshown, hport⟩ := eq_of_endless_turn hexecute
    have houtput : turn.machine.lastOutput = next.lastOutput :=
      congrArg EndlessMachine.lastOutput hshown
    exact ⟨houtput ▸ Turn.ending?_of_halted hanswer, hport⟩
  · intro s' hsend
    simp only [carryOut, hsend] at hexecute
    obtain ⟨hanswer, hshown, hport⟩ := eq_of_endless_turn hexecute
    have hcore := congrArg calm hshown
    exact ⟨hanswer, hcore, hport⟩
  · have hown : m.endless.inputs = m.core.inputs := rfl
    simp only [carryOut, hown] at hexecute
    cases hinputs : m.core.inputs with
    | cons value rest =>
      simp only [hinputs] at hexecute
      have hresumes := resumes_of_receive hexecute
      change turn.Carries port m s (match resume value with
        | .ok next => .go { next with inputs := rest }.calm | .error fault => .stop (.error fault))
      cases hresume : resume value with
      | error fault =>
        rw [hresume] at hresumes
        exact ⟨Turn.ending?_of_error hresumes.1, hresumes.2⟩
      | ok next =>
        rw [hresume] at hresumes
        exact hresumes
    | nil =>
      simp only [hinputs] at hexecute
      unfold Turn.Carries
      rcases hreceive : port.receive s with ⟨fault | _ | value, s'⟩
      · simp only [hreceive] at hexecute
        obtain ⟨hanswer, _, hport⟩ := eq_of_endless_turn hexecute
        exact ⟨hanswer, hport⟩
      · simp only [hreceive] at hexecute
        obtain ⟨hanswer, hshown, hport⟩ := eq_of_endless_turn hexecute
        have hcore := congrArg calm hshown
        rw [← hinputs] at hcore
        exact ⟨hanswer, hcore, hport⟩
      · simp only [hreceive] at hexecute
        have hresumes := resumes_of_receive hexecute
        rw [hown, hinputs] at hresumes
        exact hresumes

end Machine

/-! ## What a port shows -/

/-- At a port some values wait, more may come or not, and everything that is sent is taken. -/
structure Port.Shows {σ : Type} (port : Port σ) (s : σ) (waiting : List Word) (fed : Bool) :
    Prop where
  sends : ∀ value, ∃ s', port.send value s = (.ok (), s')
  receives : ∀ value rest, waiting = value :: rest → ∃ s', port.receive s = (.ok (some value), s')
  waits : waiting = [] → port.receive s = (if fed then .ok none else .error .channelClosed, s)

/-- What a turn leaves behind at a port at which some values waited: the values that still wait,
those that have been emitted, and the port. -/
inductive Port.Leaves {σ : Type} (port : Port σ) (s : σ) (waiting : List Word) :
    List Word → List Word → σ → Prop
  | same : Leaves port s waiting waiting [] s
  | sent {value : Word} {s' : σ} (hsend : port.send value s = (.ok (), s')) :
    Leaves port s waiting waiting [value] s'
  | taken {value : Word} {rest : List Word} {s' : σ} (hwaiting : waiting = value :: rest)
    (hreceive : port.receive s = (.ok (some value), s')) : Leaves port s waiting rest [] s'

section Turn

variable {σ : Type} {port : Port σ} {m : Machine} {s s' : σ} {waiting : List Word} {fed : Bool}
  {turn : Turn Status σ} {reaction : Reaction EndlessMachine}

/-- The turn of a machine that has got a value leaves behind what the process does with the value.
-/
lemma Turn.Resumes.react? {resume : Word → Except Fault EndlessMachine} {value : Word}
    (h : turn.Resumes s' (resume value)) (rest : List Word) :
    turn.answer ≠ .ok .needsInput ∧ turn.port = s' ∧
      Node.react? fed (value :: rest) (.ask resume) = some (turn.node rest, []) := by
  unfold Node.react? Node.resumed
  cases hresume : resume value with
  | ok next =>
    rw [hresume] at h
    obtain ⟨hanswer, hcore, hport⟩ := h
    refine ⟨by simp [hanswer], hport, ?_⟩
    rw [node_of_ok hanswer (by simp), hcore]
    simp only [hresume]
  | error fault =>
    rw [hresume] at h
    obtain ⟨hanswer, hport⟩ := h
    refine ⟨by simp [hanswer], hport, ?_⟩
    rw [node_of_error hanswer]
    simp only [hresume]

/-- A turn suspends the machine and leaves everything as it is, or it leaves behind what the process
does next. -/
lemma Turn.Carries.cases (h : turn.Carries port m s reaction)
    (hshows : port.Shows s waiting fed) :
    (turn.answer = .ok .needsInput ∧ turn.machine.core = m.core ∧ turn.port = s ∧ waiting = [] ∧
        ∃ resume, reaction = .ask resume) ∨
      turn.answer ≠ .ok .needsInput ∧ ∃ rest emitted,
        Node.react? fed waiting reaction = some (turn.node rest, emitted) ∧
          port.Leaves s waiting rest emitted turn.port := by
  obtain ⟨hsends, hreceives, hwaits⟩ := hshows
  cases reaction with
  | stop ending =>
    obtain ⟨hending, rfl⟩ := h
    refine Or.inr ⟨fun hanswer => ?_, waiting, [], ?_, .same⟩
    · rw [ending?_of_ok hanswer (by simp)] at hending
      cases hending
    · rw [node_of_ending? hending]
      rfl
  | go next =>
    obtain ⟨hanswer, hcore, rfl⟩ := h
    refine Or.inr ⟨by simp [hanswer], waiting, [], ?_, .same⟩
    rw [node_of_ok hanswer (by simp), hcore]
    rfl
  | emit value next =>
    obtain ⟨s', hsend⟩ := hsends value
    obtain ⟨hanswer, hcore, rfl⟩ := h s' hsend
    refine Or.inr ⟨by simp [hanswer], waiting, [value], ?_, .sent hsend⟩
    rw [node_of_ok hanswer (by simp), hcore]
    rfl
  | ask resume =>
    unfold Carries at h
    cases waiting with
    | cons value rest =>
      obtain ⟨s', hreceive⟩ := hreceives value rest rfl
      simp only [hreceive] at h
      obtain ⟨hanswer, hport, hreact⟩ := h.react? rest
      exact Or.inr ⟨hanswer, rest, [], hreact, hport ▸ .taken rfl hreceive⟩
    | nil =>
      have hreceive := hwaits rfl
      cases fed with
      | true =>
        simp only [hreceive] at h
        obtain ⟨hanswer, hcore, hport⟩ := h
        exact Or.inl ⟨hanswer, hcore, hport, rfl, resume, rfl⟩
      | false =>
        simp only [hreceive] at h
        obtain ⟨hanswer, rfl⟩ := h
        refine Or.inr ⟨by simp [hanswer], [], [], ?_, .same⟩
        rw [node_of_error hanswer]
        rfl

end Turn

/-- While values may still come, a machine does not end over a closed channel. -/
lemma EndlessMachine.ne_channelClosed_of_move? (x : EndlessMachine) {waiting emitted : List Word}
    {fault : Fault}
    (h : (Node.live x waiting).move? true = some (.ended (.error fault), emitted)) :
    fault ≠ .channelClosed := by
  change Node.react? true waiting x.reaction = _ at h
  cases hreaction : x.reaction with
  | stop ending =>
    rw [hreaction] at h
    cases h
    exact x.ne_channelClosed_of_stop hreaction
  | go next =>
    rw [hreaction] at h
    cases h
  | emit value next =>
    rw [hreaction] at h
    cases h
  | ask resume =>
    rw [hreaction] at h
    cases waiting with
    | nil => cases h
    | cons value rest =>
      cases hresume : resume value with
      | ok next =>
        simp [Node.react?, Node.resumed, hresume] at h
      | error fault' =>
        simp [Node.react?, Node.resumed, hresume] at h
        obtain ⟨rfl, _⟩ := h
        exact x.ne_channelClosed_of_ask hreaction hresume

end Intcode
