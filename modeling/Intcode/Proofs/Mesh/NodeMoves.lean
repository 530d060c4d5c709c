import Intcode.Proofs.Exchange
import Intcode.Proofs.Mesh.RouterSteps

/-!
# Moves of nodes

What a node of a mesh does in one move, and what it leaves behind.  A node stands to the router in
one of three ways (`Fits`): it is busy, it waits inside the router with a machine that asks for
input, or it is gone.  `Moves` lists what it can do then; `moves_move` shows that the list is
complete.
-/

namespace Intcode.Mesh

/-- A phase of a node that has something to do outside the router. -/
inductive Phase.Busy : Phase → Prop
  | running : Busy .running
  | halting : Busy .halting
  | failing {cause : Fault} : Busy (.failing cause)

/-- How a node stands to the router. -/
inductive Fits (r : Router) (k : Nat) (n : Node) : Prop
  | busy (hphase : n.phase.Busy) (hparked : (r.mailbox k).parked = false)
    (hhalted : (r.mailbox k).halted = false)
  | waiting {woken : Bool} (hphase : n.phase = .waiting woken) (hasks : n.machine.Asks)
    (hparked : (r.mailbox k).parked = true) (hhalted : (r.mailbox k).halted = false)
    (hwoken : (r.mailbox k).queue.isEmpty = false ∨ r.shutdown = true → woken = true)
  | gone (hphase : n.phase = .gone) (hparked : (r.mailbox k).parked = false)
    (hqueue : (r.mailbox k).halted = true → (r.mailbox k).queue.isEmpty = true)
    (hreason : (r.mailbox k).halted = true ∨ r.failure ≠ none ∨ r.shutdown = true)

open Router

/-- What a node can do in one move: the node and the router afterwards, and what has happened. -/
inductive Moves (natAddress : Word) (idlePolls : UInt32) (k : Nat) (n : Node) (r : Router) :
    Node → Router → List Event → Prop
  | gone (hphase : n.phase = .gone) : Moves natAddress idlePolls k n r n r []
  | halted (hphase : n.phase = .halting) :
    Moves natAddress idlePolls k n r { n with phase := .gone } (r.halt k).2
      [.halted k (r.mailbox k).queue.toList]
  | failed {cause : Fault} (hphase : n.phase = .failing cause) :
    Moves natAddress idlePolls k n r { n with phase := .gone } (r.fail k cause).2
      [.failed k cause]
  | computed {machine : Machine} {phase : Phase} (hphase : n.phase = .running)
    (hbusy : phase.Busy) : Moves natAddress idlePolls k n r ⟨machine, n.pending, phase⟩ r []
  | took {value : Word} {machine : Machine} {phase : Phase} {r' : Router}
    (hphase : n.phase = .running ∨ ∃ woken, n.phase = .waiting woken) (hbusy : phase.Busy)
    (hstep : Step natAddress idlePolls r (.took k value) r') :
    Moves natAddress idlePolls k n r ⟨machine, n.pending, phase⟩ r' [.took k value]
  | foundEmpty {machine : Machine} {phase : Phase} {r' : Router} (hphase : n.phase = .running)
    (hbusy : phase.Busy) (hstep : Step natAddress idlePolls r (.foundEmpty k) r') :
    Moves natAddress idlePolls k n r ⟨machine, n.pending, phase⟩ r' [.foundEmpty k]
  | parked {machine : Machine} {r' : Router} (hphase : n.phase = .running) (hasks : machine.Asks)
    (hstep : Step natAddress idlePolls r (.parked k) r') :
    Moves natAddress idlePolls k n r ⟨machine, n.pending, .waiting false⟩ r' [.parked k]
  | stayed {woken : Bool} (hphase : n.phase = .waiting woken)
    (hstep : Step natAddress idlePolls r (.stayed k) r) :
    Moves natAddress idlePolls k n r { n with phase := .waiting false } r [.stayed k]
  | turnedAway {machine : Machine} (hphase : n.phase = .running) (hclosed : r.shutdown = true) :
    Moves natAddress idlePolls k n r ⟨machine, n.pending, .gone⟩ r [.turnedAway k]
  | released {woken : Bool} {machine : Machine} (hphase : n.phase = .waiting woken)
    (hparked : (r.mailbox k).parked = true) (hclosed : r.shutdown = true) :
    Moves natAddress idlePolls k n r ⟨machine, n.pending, .gone⟩ (r.release k) [.turnedAway k]
  | emitted {value : Word} {machine : Machine} (hphase : n.phase = .running)
    (hpending : n.pending.length ≠ 2) :
    Moves natAddress idlePolls k n r ⟨machine, n.pending ++ [value], .running⟩ r
      [.emitted k value]
  | passed {destination x y : Word} {event : Event} {machine : Machine} {r' : Router}
    (hphase : n.phase = .running) (hpending : n.pending = [destination, x])
    (hhands : Hands k ⟨destination, x, y⟩ event) (hstep : Step natAddress idlePolls r event r') :
    Moves natAddress idlePolls k n r ⟨machine, [], .running⟩ r' [event, .emitted k y]
  | barred {destination x y : Word} {machine : Machine} (hphase : n.phase = .running)
    (hpending : n.pending = [destination, x]) (hclosed : r.shutdown = true) :
    Moves natAddress idlePolls k n r ⟨machine, [], .gone⟩ r [.turnedAway k, .emitted k y]

/-! ## The port of a node -/

/-- What a node that polls is told. -/
def Router.Reply.answer : Reply → Except Fault (Option Word)
  | .value v => .ok (some v)
  | .empty => .ok (some Word.minusOne)
  | .park | .stay => .ok none
  | .closed => .error .channelClosed

/-- The answers of an input instruction that a reply allows. -/
inductive Router.Reply.Allows : Reply → Except Fault Status → Prop
  | value {v : Word} {answer : Except Fault Status} (h : Settles answer) : Allows (.value v) answer
  | empty {answer : Except Fault Status} (h : Settles answer) : Allows .empty answer
  | park : Allows .park (.ok .needsInput)
  | stay : Allows .stay (.ok .needsInput)
  | closed : Allows .closed (.error .channelClosed)

section Port

variable {natAddress : Word} {idlePolls : UInt32} {k : Nat} {n : Node} {r r' : Router}

lemma busy_after {answer : Except Fault Status} (h : Settles answer) :
    (Phase.after answer).Busy := by
  cases h with
  | running => exact .running
  | halted => exact .halting
  | @fault fault h =>
    unfold Phase.after
    split
    · exact .halting
    · next heq => cases heq
    · exact .running
    · next heq => exact absurd (Except.error.inj heq) h
    · exact .failing

/-- A node receives what the router replies. -/
lemma receive_eq {reply : Reply} (h : r.poll idlePolls k = (reply, r')) (pending : List Word)
    (events : List Event) :
    receive idlePolls k ⟨r, pending, events⟩ =
      (reply.answer, ⟨r', pending, reply.event k :: events⟩) := by
  unfold receive
  rw [h]
  cases reply <;> rfl

/-- An input instruction of a node polls the router. -/
lemma allows_of_asked {reply : Reply} (h : r.poll idlePolls k = (reply, r')) {pending : List Word}
    {answer : Except Fault Status} {desk : Desk}
    (hasked : (port natAddress idlePolls k).Asked ⟨r, pending, []⟩ answer desk) :
    desk = ⟨r', pending, [reply.event k]⟩ ∧ reply.Allows answer := by
  have hreceive : (port natAddress idlePolls k).receive ⟨r, pending, []⟩ =
    (reply.answer, ⟨r', pending, [reply.event k]⟩) := receive_eq h pending []
  cases hasked with
  | received hreceived hsettles =>
    rw [hreceive] at hreceived
    obtain ⟨hanswer, rfl⟩ := Prod.mk.inj hreceived
    refine ⟨rfl, ?_⟩
    cases reply with
    | value v => exact .value hsettles
    | empty => exact .empty hsettles
    | park => cases hanswer
    | stay => cases hanswer
    | closed => cases hanswer
  | suspended hreceived =>
    rw [hreceive] at hreceived
    obtain ⟨hanswer, rfl⟩ := Prod.mk.inj hreceived
    refine ⟨rfl, ?_⟩
    cases reply with
    | value v => cases hanswer
    | empty => cases hanswer
    | park => exact .park
    | stay => exact .stay
    | closed => cases hanswer
  | refused hreceived =>
    rw [hreceive] at hreceived
    obtain ⟨hanswer, rfl⟩ := Prod.mk.inj hreceived
    refine ⟨rfl, ?_⟩
    cases reply with
    | value v => cases hanswer
    | empty => cases hanswer
    | park => cases hanswer
    | stay => cases hanswer
    | closed =>
      cases hanswer
      exact .closed

/-- A node emits a value, and the packet that the value completes is passed on, if any, or the node
is turned away with it. -/
lemma send_cases (natAddress : Word) (idlePolls : UInt32) (k : Nat) (r : Router)
    (pending : List Word) (value : Word) :
    (pending.length ≠ 2 ∧ (port natAddress idlePolls k).send value ⟨r, pending, []⟩ =
        (.ok (), ⟨r, pending ++ [value], [.emitted k value]⟩)) ∨
      ∃ destination x, pending = [destination, x] ∧
        ((r.shutdown = true ∧ (port natAddress idlePolls k).send value ⟨r, pending, []⟩ =
            (.error .channelClosed, ⟨r, [], [.turnedAway k, .emitted k value]⟩)) ∨
          ∃ event r', Hands k ⟨destination, x, value⟩ event ∧
            Step natAddress idlePolls r event r' ∧
            (port natAddress idlePolls k).send value ⟨r, pending, []⟩ =
              (.ok (), ⟨r', [], [event, .emitted k value]⟩)) := by
  change (_ ∧ send natAddress k value _ = _) ∨ ∃ destination x, _ ∧
    ((_ ∧ send natAddress k value _ = _) ∨ ∃ event r', _ ∧ _ ∧ send natAddress k value _ = _)
  by_cases hpending : pending.length = 2
  · obtain ⟨destination, x, rfl⟩ := List.length_eq_two.1 hpending
    refine Or.inr ⟨destination, x, rfl, ?_⟩
    rcases hroute : r.route natAddress k ⟨destination, x, value⟩ with ⟨event, r'⟩
    unfold send
    simp only [hroute]
    rcases step_route hroute with ⟨rfl, rfl, hshut⟩ | ⟨hhands, hstep⟩
    · exact Or.inl ⟨hshut, rfl⟩
    · refine Or.inr ⟨event, r', hhands, hstep, ?_⟩
      cases hhands <;> rfl
  · refine Or.inl ⟨hpending, ?_⟩
    unfold send
    split
    · next heq => exact absurd (congrArg List.length heq) hpending
    · rfl

/-! ## All that a node can do -/

/-- A move of a node that has a machine to go on with. -/
lemma move_eq (hphase : n.phase = .running ∨ ∃ woken, n.phase = .waiting woken)
    {answer : Except Fault Status} {machine : Machine} {desk : Desk}
    (h : n.machine.execute (port natAddress idlePolls k) ⟨r, n.pending, []⟩ =
      ⟨answer, machine, desk⟩) :
    n.move (port natAddress idlePolls k) k (r, []) =
      (⟨machine, desk.pending, .after answer⟩, desk.router, desk.events) := by
  unfold Node.move
  rcases hphase with hphase | ⟨woken, hphase⟩
  · rw [hphase]
    simp only [h]
  · rw [hphase]
    simp only [h]

/-- A node that is parked can only poll. -/
lemma moves_of_waiting {woken : Bool} {next : Node} {events : List Event}
    (hphase : n.phase = .waiting woken) (hasks : n.machine.Asks)
    (hparked : (r.mailbox k).parked = true) (hlive : (r.mailbox k).halted = false)
    (h : n.move (port natAddress idlePolls k) k (r, []) = (next, r', events)) :
    Moves natAddress idlePolls k n r next r' events := by
  rcases hpoll : r.poll idlePolls k with ⟨reply, r''⟩
  rcases hturn : n.machine.execute (port natAddress idlePolls k) ⟨r, n.pending, []⟩ with
    ⟨answer, machine, desk⟩
  have hasked := hasks.asked (port natAddress idlePolls k) ⟨r, n.pending, []⟩
  rw [hturn] at hasked
  obtain ⟨rfl, hallows⟩ := allows_of_asked hpoll hasked
  obtain ⟨hstep, hempty, hpark, hclosed⟩ :=
    step_pollParked natAddress hlive hparked hpoll
  rw [move_eq (Or.inr ⟨woken, hphase⟩) hturn] at h
  cases h
  cases hallows with
  | value hsettles => exact .took (Or.inr ⟨woken, hphase⟩) (busy_after hsettles) hstep
  | empty => exact absurd rfl hempty
  | park => exact absurd rfl hpark
  | stay =>
    have hreceive : (port natAddress idlePolls k).receive ⟨r, n.pending, []⟩ =
      (.ok none, ⟨r'', n.pending, [.stayed k]⟩) := receive_eq hpoll n.pending []
    have hmachine : machine = n.machine :=
      congrArg Turn.machine (hturn.symm.trans (hasks.execute_of_receive hreceive))
    have hsame : r'' = r := by
      cases hstep
      rfl
    rw [hmachine, hsame]
    exact .stayed hphase (hsame ▸ hstep)
  | closed =>
    obtain ⟨hshut, rfl⟩ := hclosed rfl
    exact .released hphase hparked hshut

/-- A node that executes an instruction uses the router once at most. -/
lemma moves_of_running {next : Node} {events : List Event} (hphase : n.phase = .running)
    (hawake : (r.mailbox k).parked = false) (hlive : (r.mailbox k).halted = false)
    (h : n.move (port natAddress idlePolls k) k (r, []) = (next, r', events)) :
    Moves natAddress idlePolls k n r next r' events := by
  rcases hturn : n.machine.execute (port natAddress idlePolls k) ⟨r, n.pending, []⟩ with
    ⟨answer, machine, desk⟩
  have hused := Machine.used_execute (port natAddress idlePolls k) n.machine ⟨r, n.pending, []⟩
  have hasks (h : answer = .ok .needsInput) : machine.Asks := by
    have hturnAsks := Machine.asks_of_needsInput (congrArg Turn.answer hturn |>.trans h)
    rwa [hturn] at hturnAsks
  rw [hturn] at hused
  rw [move_eq (Or.inl hphase) hturn] at h
  cases h
  cases hused with
  | alone hsettles => exact .computed hphase (busy_after hsettles)
  | asked hasked =>
    rcases hpoll : r.poll idlePolls k with ⟨reply, r'⟩
    obtain ⟨rfl, hallows⟩ := allows_of_asked hpoll hasked
    obtain ⟨hstep, hstay, hclosed⟩ := step_pollAwake natAddress hlive hawake hpoll
    cases hallows with
    | value hsettles => exact .took (Or.inl hphase) (busy_after hsettles) hstep
    | empty hsettles => exact .foundEmpty hphase (busy_after hsettles) hstep
    | park => exact .parked hphase (hasks rfl) hstep
    | stay => exact absurd rfl hstay
    | closed =>
      obtain ⟨hshut, rfl⟩ := hclosed rfl
      exact .turnedAway hphase hshut
  | @sent value desk hsend =>
    rcases send_cases natAddress idlePolls k r n.pending value with
      ⟨hpending, hsent⟩ | ⟨destination, x, hpending, ⟨_, hsent⟩ | ⟨event, r', hhands, hstep, hsent⟩⟩
    · cases hsend.symm.trans hsent
      exact .emitted hphase hpending
    · cases hsend.symm.trans hsent
    · cases hsend.symm.trans hsent
      exact .passed hphase hpending hhands hstep
  | @unsent value fault desk hsend =>
    rcases send_cases natAddress idlePolls k r n.pending value with
      ⟨_, hsent⟩ | ⟨destination, x, hpending, ⟨hshut, hsent⟩ | ⟨event, r', _, _, hsent⟩⟩
    · cases hsend.symm.trans hsent
    · cases hsend.symm.trans hsent
      exact .barred hphase hpending hshut
    · cases hsend.symm.trans hsent

/-- A node that stands to the router in one of the three ways moves as listed. -/
theorem moves_move {next : Node} {events : List Event} (hfits : Fits r k n)
    (h : n.move (port natAddress idlePolls k) k (r, []) = (next, r', events)) :
    Moves natAddress idlePolls k n r next r' events := by
  cases hfits with
  | busy hbusy hawake hlive =>
    generalize hphase : n.phase = phase at hbusy
    cases hbusy with
    | running => exact moves_of_running hphase hawake hlive h
    | halting =>
      unfold Node.move at h
      rw [hphase] at h
      cases h
      exact .halted hphase
    | failing =>
      unfold Node.move at h
      rw [hphase] at h
      cases h
      exact .failed hphase
  | waiting hphase hasks hparked hlive => exact moves_of_waiting hphase hasks hparked hlive h
  | gone hphase =>
    unfold Node.move at h
    rw [hphase] at h
    cases h
    exact .gone hphase

end Port

/-! ## What a move comes to -/

section Moves

variable {natAddress : Word} {idlePolls : UInt32} {k i : Nat} {n next : Node} {r r' : Router}
  {events : List Event}

/-- All that happens in a move of a node is done by that node. -/
lemma Moves.actor? (h : Moves natAddress idlePolls k n r next r' events) :
    ∀ event ∈ events, event.actor? = some k := by
  cases h with
  | @passed _ _ y event _ _ _ _ hhands _ =>
    intro other hmem
    rcases List.mem_cons.1 hmem with rfl | hmem
    · cases hhands <;> rfl
    · rw [List.mem_singleton.1 hmem]
      rfl
  | _ => simp [Event.actor?]

/-- The router makes steps in a move of a node. -/
lemma Moves.steps (h : Moves natAddress idlePolls k n r next r' events) :
    Steps natAddress idlePolls r events r' := by
  cases h with
  | gone => exact .nil
  | halted => exact Step.halted.steps
  | failed => exact Step.failed.steps
  | computed => exact .nil
  | took _ _ hstep => exact hstep.steps
  | foundEmpty _ _ hstep => exact hstep.steps
  | parked _ _ hstep => exact hstep.steps
  | stayed _ hstep => exact hstep.steps
  | turnedAway _ hclosed => exact (Step.turnedAway hclosed).steps
  | released _ hparked hclosed => exact (Step.released hclosed hparked).steps
  | emitted => exact Step.emitted.steps
  | passed _ _ _ hstep => exact Step.emitted.steps.cons hstep
  | barred _ _ hclosed => exact Step.emitted.steps.cons (.turnedAway hclosed)

lemma Fits.halted_of_busy (h : Fits r k n) (hbusy : n.phase.Busy) :
    (r.mailbox k).parked = false ∧ (r.mailbox k).halted = false := by
  cases h with
  | busy _ hparked hhalted => exact ⟨hparked, hhalted⟩
  | waiting hphase =>
    rw [hphase] at hbusy
    cases hbusy
  | gone hphase =>
    rw [hphase] at hbusy
    cases hbusy

lemma Fits.of_waiting {woken : Bool} (h : Fits r k n) (hphase : n.phase = .waiting woken) :
    n.machine.Asks ∧ (r.mailbox k).parked = true ∧ (r.mailbox k).halted = false ∧
      ((r.mailbox k).queue.isEmpty = false ∨ r.shutdown = true → woken = true) := by
  cases h with
  | busy hbusy =>
    rw [hphase] at hbusy
    cases hbusy
  | waiting hphase' hasks hparked hhalted hwoken =>
    cases hphase.symm.trans hphase'
    exact ⟨hasks, hparked, hhalted, hwoken⟩
  | gone hphase' => cases hphase.symm.trans hphase'

/-- A node that has moved fits the router again. -/
lemma Moves.fits (h : Moves natAddress idlePolls k n r next r' events) (hfits : Fits r k n) :
    Fits r' k next := by
  have hrunning (hphase : n.phase = .running) :=
    hfits.halted_of_busy (hphase ▸ Phase.Busy.running)
  cases h with
  | gone => exact hfits
  | halted hphase =>
    obtain ⟨hparked, hhalted⟩ := hfits.halted_of_busy (hphase ▸ Phase.Busy.halting)
    have hbox := r.mailbox_halt (r.lt_size_of_halted hhalted)
    refine .gone rfl ?_ (fun _ => ?_) (Or.inl ?_)
    · rw [hbox]
      exact hparked
    · rw [hbox]
      exact Queue.isEmpty_iff.2 (Queue.toList_clear _)
    · rw [hbox]
  | @failed cause hphase =>
    obtain ⟨hparked, hhalted⟩ := hfits.halted_of_busy (hphase ▸ Phase.Busy.failing)
    refine .gone rfl hparked (fun h => ?_) (Or.inr (Or.inl ?_))
    · exact absurd (hhalted.symm.trans h) (by simp)
    · change r.failure.or (some (k, cause)) ≠ none
      simp
  | computed hphase hbusy =>
    obtain ⟨hparked, hhalted⟩ := hrunning hphase
    exact .busy hbusy hparked hhalted
  | took _ hbusy hstep =>
    cases hstep with
    | took _ hlive _ =>
      have hbox := r.mailbox_take (r.lt_size_of_halted hlive)
      exact .busy hbusy (by rw [hbox]) (by rw [hbox, hlive])
  | foundEmpty _ hbusy hstep =>
    cases hstep with
    | foundEmpty _ hlive hawake _ _ =>
      have hbox := r.mailbox_noteEmptyPoll (r.lt_size_of_halted hlive)
      exact .busy hbusy (by rw [hbox, hawake]) (by rw [hbox, hlive])
  | parked _ hasks hstep =>
    cases hstep with
    | parked hopen hlive _ hqueue _ =>
      have hbox := r.mailbox_park (r.lt_size_of_halted hlive)
      refine .waiting rfl hasks (by rw [hbox]) (by rw [hbox, hlive]) ?_
      rintro (hfull | hshut)
      · rw [hbox] at hfull
        exact absurd (hqueue.symm.trans hfull) (by simp)
      · exact absurd (hopen.symm.trans hshut) (by simp)
  | stayed hphase hstep =>
    obtain ⟨hasks, hparked, hhalted, _⟩ := hfits.of_waiting hphase
    cases hstep with
    | stayed hopen _ hqueue =>
      refine .waiting rfl hasks hparked hhalted ?_
      rintro (hfull | hshut)
      · exact absurd (hqueue.symm.trans hfull) (by simp)
      · exact absurd (hopen.symm.trans hshut) (by simp)
  | turnedAway hphase hclosed =>
    obtain ⟨hparked, hhalted⟩ := hrunning hphase
    exact .gone rfl hparked (fun h => absurd (hhalted.symm.trans h) (by simp))
      (Or.inr (Or.inr hclosed))
  | released hphase _ hclosed =>
    obtain ⟨_, _, hhalted, _⟩ := hfits.of_waiting hphase
    have hbox := r.mailbox_release (r.lt_size_of_halted hhalted)
    refine .gone rfl (by rw [hbox]) (fun h => ?_) (Or.inr (Or.inr hclosed))
    rw [hbox] at h
    exact absurd (hhalted.symm.trans h) (by simp)
  | emitted hphase _ =>
    obtain ⟨hparked, hhalted⟩ := hrunning hphase
    exact .busy .running hparked hhalted
  | passed hphase _ hhands hstep =>
    obtain ⟨hparked, hhalted⟩ := hrunning hphase
    cases hhands with
    | routed =>
      cases hstep with
      | routed => exact .busy .running (by simpa using hparked) (by simpa using hhalted)
    | retained =>
      cases hstep with
      | retained => exact .busy .running (by simpa using hparked) (by simpa using hhalted)
    | dropped =>
      cases hstep with
      | dropped => exact .busy .running (by simpa using hparked) (by simpa using hhalted)
  | barred hphase _ hclosed =>
    obtain ⟨hparked, hhalted⟩ := hrunning hphase
    exact .gone rfl hparked (fun h => absurd (hhalted.symm.trans h) (by simp))
      (Or.inr (Or.inr hclosed))

/-- A node that does not move still fits the router if it is woken up when others are. -/
lemma Fits.keeps {wakes : Bool} (h : Fits r k n) (hkeeps : Keeps wakes r r' k) :
    Fits r' k (if wakes then n.wake else n) := by
  obtain ⟨_, hparked', hhalted', hqueue', hfailure', hshut'⟩ := hkeeps
  cases h with
  | busy hphase hparked hhalted =>
    have hwake : (if wakes then n.wake else n) = n := by
      cases wakes with
      | false => rfl
      | true =>
        change n.wake = n
        unfold Node.wake
        split
        · next heq =>
          rw [heq] at hphase
          cases hphase
        · rfl
    rw [hwake]
    exact .busy hphase (hparked'.trans hparked) (hhalted'.trans hhalted)
  | @waiting woken hphase hasks hparked hhalted hwoken =>
    have hwake : (if wakes then n.wake else n) =
        { n with phase := .waiting (wakes || woken) } := by
      cases wakes with
      | false =>
        rw [if_neg (by simp), Bool.false_or, ← hphase]
      | true =>
        change n.wake = _
        unfold Node.wake
        rw [hphase]
        rfl
    rw [hwake]
    refine .waiting rfl hasks (hparked'.trans hparked) (hhalted'.trans hhalted) fun hdue => ?_
    rw [Bool.or_eq_true]
    rcases hqueue' with hqueue | ⟨hwakes, _⟩
    · rcases hshut' with hshut | ⟨hwakes, _⟩
      · rw [hqueue, hshut] at hdue
        exact Or.inr (hwoken hdue)
      · exact Or.inl hwakes
    · exact Or.inl hwakes
  | gone hphase hparked hqueue hreason =>
    have hwake : (if wakes then n.wake else n) = n := by
      cases wakes with
      | false => rfl
      | true =>
        change n.wake = n
        unfold Node.wake
        rw [hphase]
    rw [hwake]
    refine .gone hphase (hparked'.trans hparked) (fun hhalted => ?_) ?_
    · rw [hhalted'] at hhalted
      rcases hqueue' with hsame | ⟨_, hlive⟩
      · rw [hsame]
        exact hqueue hhalted
      · exact absurd (hlive.symm.trans hhalted) (by simp)
    · rcases hreason with hhalted | hfailed | hclosed
      · exact Or.inl (hhalted'.trans hhalted)
      · exact Or.inr (Or.inl (hfailure' hfailed))
      · exact Or.inr (Or.inr (hshut'.elim (fun h => h.trans hclosed) fun h => h.2))

/-- Only an event that wakes everybody up gives the supervisor something to do. -/
lemma Moves.isDue (h : Moves natAddress idlePolls k n r next r' events) (hfits : Fits r k n)
    (hwakes : events.any Event.wakes = false) (hdue : r'.IsDue) : r.IsDue := by
  have hawake (hparked : (r'.mailbox k).parked = false) (hlive : (r'.mailbox k).halted = false)
      (hfailure : r'.failure = r.failure) : r.IsDue := by
    rcases hdue with hidle | hfailed
    · rw [isIdle_of_awake hparked hlive] at hidle
      cases hidle
    · exact Or.inr (hfailure ▸ hfailed)
  have hfits' := h.fits hfits
  cases h with
  | gone => exact hdue
  | halted => cases hwakes
  | failed => cases hwakes
  | computed => exact hdue
  | took _ hbusy hstep =>
    obtain ⟨hparked, hlive⟩ := hfits'.halted_of_busy hbusy
    cases hstep
    exact hawake hparked hlive rfl
  | foundEmpty _ hbusy hstep =>
    obtain ⟨hparked, hlive⟩ := hfits'.halted_of_busy hbusy
    cases hstep
    exact hawake hparked hlive rfl
  | parked => cases hwakes
  | stayed => exact hdue
  | turnedAway => exact hdue
  | released hphase =>
    obtain ⟨_, _, hlive, _⟩ := hfits.of_waiting hphase
    have hbox := r.mailbox_release (r.lt_size_of_halted hlive)
    exact hawake (by rw [hbox]) (by rw [hbox, hlive]) rfl
  | emitted => exact hdue
  | passed _ _ hhands hstep =>
    obtain ⟨hparked, hlive⟩ := hfits'.halted_of_busy .running
    cases hhands with
    | routed => cases hwakes
    | retained =>
      cases hstep
      exact hawake hparked hlive rfl
    | dropped =>
      cases hstep
      exact hawake hparked hlive rfl
  | barred => exact hdue

end Moves

end Intcode.Mesh
