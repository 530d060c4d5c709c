import Intcode.Proofs.Mesh.Histories

/-!
# Counts of empty polls

The router counts the empty polls of a node since it last got a value or sent a packet.  A node that
is not parked has one more poll left before the count comes to what the settings allow
(`Router.HasPollsLeft`), and the count of a parked node has come to exactly that
(`isFull_after`).  So the count does not overflow, and between two values or packets a node
is told less often than that that nothing is waiting (`Router.Steps.count_foundEmpty`).  A parked
node is not told so at all: it goes on waiting or gets a value (`Sound.awakes`).
-/

namespace Intcode.Mesh

open Router

/-- Tells whether a node gets a value that was waiting, or has sent a packet. -/
def Event.restarts (k : Nat) : Event → Bool
  | .took i _ | .routed i _ _ | .retained i _ | .dropped i _ => i = k
  | _ => false

/-- One more is counted without overflow while there are not too many. -/
lemma toNat_succ_of_lt {a b : UInt32} (h : a < b) : (a + 1).toNat = a.toNat + 1 := by
  have hlt := UInt32.lt_iff_toNat_lt.1 h
  have hbound := b.toNat_lt
  rw [UInt32.toNat_add]
  exact Nat.mod_eq_of_lt (by simp only [UInt32.toNat_one]; omega)

/-- Settings that a mesh can run with allow one empty poll, at least. -/
lemma Settings.idlePolls_pos (settings : Settings) (hcheck : settings.check = .ok ()) :
    0 < settings.idlePolls := by
  refine UInt32.pos_iff_ne_zero.2 fun hzero => ?_
  unfold check at hcheck
  rw [if_pos hzero] at hcheck
  split_ifs at hcheck

/-! ## What becomes of a count -/

namespace Router

/-- What becomes of the count of a node when something happens. -/
inductive Counts (idlePolls : UInt32) (k : Nat) (r : Router) (event : Event) (r' : Router) : Prop
  | same (hevent : event ≠ .foundEmpty k)
    (hpolls : (r'.mailbox k).emptyPolls = (r.mailbox k).emptyPolls)
    (hparked : (r'.mailbox k).parked = (r.mailbox k).parked)
  | restarted (hevent : event.restarts k = true) (hpolls : (r'.mailbox k).emptyPolls = 0)
  | released (hevent : event = .turnedAway k) (hclosed : r'.shutdown = true)
    (hpolls : (r'.mailbox k).emptyPolls = 0)
  | foundEmpty (hevent : event = .foundEmpty k) (hopen : r.shutdown = false)
    (hawake : (r.mailbox k).parked = false) (hfew : (r.mailbox k).emptyPolls + 1 < idlePolls)
    (hpolls : (r'.mailbox k).emptyPolls = (r.mailbox k).emptyPolls + 1)
  | parked (hevent : event = .parked k) (hawake : (r.mailbox k).parked = false)
    (hmany : ¬ (r.mailbox k).emptyPolls + 1 < idlePolls)
    (hpolls : (r'.mailbox k).emptyPolls = (r.mailbox k).emptyPolls + 1)
    (hparked : (r'.mailbox k).parked = true)

variable {natAddress : Word} {idlePolls : UInt32} {r r' : Router} {event : Event} {k : Nat}
  {events : List Event}

/-- The count of a node starts again with a change that sets it to zero, also if there is no such
node. -/
lemma emptyPolls_update_self (r : Router) {f : Mailbox → Mailbox}
    (h : ∀ box, (f box).emptyPolls = 0) : ((r.update k f).mailbox k).emptyPolls = 0 := by
  by_cases hk : k < r.mailboxes.size
  · rw [r.mailbox_update_self f hk, h]
  · rw [mailbox_of_size_le _ (by rw [size_update]; exact Nat.le_of_not_lt hk)]

/-- Every step treats the count of every node in one of these ways. -/
lemma Step.counts (h : Step natAddress idlePolls r event r') (k : Nat) :
    Counts idlePolls k r event r' := by
  by_cases hactor : event.actor? = some k
  · cases h with
    | took =>
      cases hactor
      exact .restarted (by simp [Event.restarts]) (r.emptyPolls_update_self fun _ => rfl)
    | foundEmpty hopen hlive hawake _ hfew =>
      cases hactor
      refine .foundEmpty rfl hopen hawake hfew ?_
      rw [r.mailbox_noteEmptyPoll (r.lt_size_of_halted hlive)]
    | parked _ hlive hawake _ hmany =>
      cases hactor
      have hbox := r.mailbox_park (r.lt_size_of_halted hlive)
      exact .parked rfl hawake hmany (by rw [hbox]) (by rw [hbox])
    | stayed => exact .same (by simp) rfl rfl
    | emitted => exact .same (by simp) rfl rfl
    | routed =>
      cases hactor
      refine .restarted (by simp [Event.restarts]) ?_
      rw [mailbox_countRouted, emptyPolls_deliver]
      exact r.emptyPolls_update_self fun _ => rfl
    | retained =>
      cases hactor
      exact .restarted (by simp [Event.restarts]) (r.emptyPolls_update_self fun _ => rfl)
    | dropped =>
      cases hactor
      exact .restarted (by simp [Event.restarts]) (r.emptyPolls_update_self fun _ => rfl)
    | turnedAway => exact .same (by simp) rfl rfl
    | released hclosed =>
      cases hactor
      exact .released rfl hclosed (r.emptyPolls_update_self fun _ => rfl)
    | halted =>
      exact .same (by simp) (r.field_update _ Mailbox.emptyPolls fun _ => rfl)
        (r.field_update _ Mailbox.parked fun _ => rfl)
    | failed => exact .same (by simp) rfl rfl
    | injected => cases hactor
    | shutDown => cases hactor
  · have hkeeps := h.keeps hactor
    refine .same ?_ hkeeps.emptyPolls hkeeps.parked
    rintro rfl
    exact hactor rfl

/-- A node that is not parked has polled its empty queue less often than the settings allow. -/
def HasPollsLeft (idlePolls : UInt32) (k : Nat) (r : Router) : Prop :=
  (r.mailbox k).parked = false → (r.mailbox k).emptyPolls < idlePolls

lemma Step.hasPollsLeft (h : Step natAddress idlePolls r event r') (hpos : 0 < idlePolls)
    (hleft : r.HasPollsLeft idlePolls k) : r'.HasPollsLeft idlePolls k := by
  intro hawake'
  cases h.counts k with
  | same _ hpolls hparked => exact hpolls ▸ hleft (hparked ▸ hawake')
  | restarted _ hpolls => exact hpolls ▸ hpos
  | released _ _ hpolls => exact hpolls ▸ hpos
  | foundEmpty _ _ _ hfew hpolls => exact hpolls ▸ hfew
  | parked _ _ _ _ hparked => cases hparked.symm.trans hawake'

lemma Steps.hasPollsLeft (h : Steps natAddress idlePolls r events r') (hpos : 0 < idlePolls)
    (hleft : r.HasPollsLeft idlePolls k) : r'.HasPollsLeft idlePolls k := by
  induction h with
  | nil => exact hleft
  | cons _ hstep ih => exact hstep.hasPollsLeft hpos ih

lemma hasPollsLeft_start (settings : Settings) (hpos : 0 < settings.idlePolls) (k : Nat) :
    (start settings).HasPollsLeft settings.idlePolls k := by
  obtain ⟨halted, hbox⟩ := exists_mailbox_start settings k
  intro _
  rwa [hbox]

/-- As long as a node neither gets a value nor sends a packet, it is told less often than the
settings say that nothing is waiting.  Until the mesh comes to its end, all these polls are in the
count. -/
lemma Steps.count_foundEmpty (h : Steps natAddress idlePolls r events r') (hpos : 0 < idlePolls)
    (hleft : r.HasPollsLeft idlePolls k) (hevents : ∀ event ∈ events, event.restarts k = false) :
    events.count (.foundEmpty k) < idlePolls.toNat ∧
      (r'.shutdown = false → events.count (.foundEmpty k) ≤ (r'.mailbox k).emptyPolls.toNat) := by
  induction h with
  | nil => exact ⟨UInt32.lt_iff_toNat_lt.1 hpos, fun _ => Nat.zero_le _⟩
  | @cons events event r₁ r₂ hsteps hstep ih =>
    obtain ⟨hfew, hcounted⟩ := ih fun event hmem => hevents event (List.mem_cons_of_mem _ hmem)
    have hleft₁ := hsteps.hasPollsLeft hpos hleft
    have hopen₁ (hopen : r₂.shutdown = false) : r₁.shutdown = false := by
      by_contra hclosed
      cases hopen.symm.trans (hstep.shutdown_mono (by simpa using hclosed))
    cases hstep.counts k with
    | same hevent hpolls =>
      rw [List.count_cons_of_ne hevent, hpolls]
      exact ⟨hfew, fun hopen => hcounted (hopen₁ hopen)⟩
    | restarted hevent => cases hevent.symm.trans (hevents event List.mem_cons_self)
    | released hevent hclosed =>
      rw [List.count_cons_of_ne (by simp [hevent])]
      exact ⟨hfew, fun hopen => by cases hclosed.symm.trans hopen⟩
    | foundEmpty hevent hopen hawake hfew₁ hpolls =>
      have hsucc := toNat_succ_of_lt (hleft₁ hawake)
      have hbound := UInt32.lt_iff_toNat_lt.1 hfew₁
      have hcount := hcounted hopen
      rw [hevent, List.count_cons_self, hpolls]
      exact ⟨by omega, fun _ => by omega⟩
    | parked hevent hawake _ hpolls =>
      have hsucc := toNat_succ_of_lt (hleft₁ hawake)
      rw [List.count_cons_of_ne (by simp [hevent]), hpolls]
      refine ⟨hfew, fun hopen => ?_⟩
      have hcount := hcounted (hopen₁ hopen)
      omega

/-! ## Parked nodes -/

/-- What a parked node that stops waiting is told: if nothing is waiting for it after all, then
that. -/
def answerWoken (k : Nat) (r : Router) : Reply :=
  if r.shutdown then .closed
  else
    match (r.mailbox k).queue.pop? with
    | some (value, _) => .value value
    | none => .empty

/-- A parked node stops waiting if a value is waiting for it or the mesh is coming to its end. -/
lemma reply_poll_of_parked (hparked : (r.mailbox k).parked = true) :
    (r.poll idlePolls k).1 =
      if (r.mailbox k).queue.isEmpty && !r.shutdown then .stay else r.answerWoken k := by
  unfold poll
  rw [if_pos hparked]
  unfold pollParked answerWoken
  cases hpop : (r.mailbox k).queue.pop? with
  | none =>
    rw [Queue.pop?_eq_none_iff.1 hpop]
    cases r.shutdown <;> rfl
  | some popped =>
    rw [Queue.isEmpty_of_pop?_eq_some hpop]
    cases r.shutdown <;> rfl

end Router

variable {natAddress : Word} {idlePolls : UInt32} {k : Nat} {n next : Node} {r r' : Router}
  {events : List Event} {m : Mesh}

/-- The count of a parked node has come to what the settings allow. -/
def Router.IsFull (idlePolls : UInt32) (k : Nat) (r : Router) : Prop :=
  (r.mailbox k).parked = true → (r.mailbox k).emptyPolls = idlePolls

/-- A node that has moved and is parked has been so before or has just polled for the last time. -/
lemma Moves.isFull (h : Moves natAddress idlePolls k n r next r' events) (hfits : Fits r k n)
    (hleft : r.HasPollsLeft idlePolls k) (hfull : r.IsFull idlePolls k) :
    r'.IsFull idlePolls k := by
  intro hparked
  -- Only a node that waits is parked, and only two of its moves leave a node waiting.
  have hfits' := h.fits hfits
  cases hfits' with
  | busy _ hawake => cases hawake.symm.trans hparked
  | gone _ hawake => cases hawake.symm.trans hparked
  | waiting hphase =>
    have hidle : ¬ next.phase.Busy := by
      rw [hphase]
      rintro ⟨⟩
    cases h with
    | stayed => exact hfull hparked
    | parked _ _ hstep =>
      cases hstep with
      | parked _ hlive hawake _ hmany =>
        have hlt := hleft hawake
        have hsucc := toNat_succ_of_lt hlt
        rw [r.mailbox_park (r.lt_size_of_halted hlive)]
        refine UInt32.toNat_inj.1 ?_
        rw [UInt32.lt_iff_toNat_lt] at hlt hmany
        change ((r.mailbox k).emptyPolls + 1).toNat = _
        omega
    | gone hphase' => cases hphase'.symm.trans hphase
    | computed _ hbusy => exact absurd hbusy hidle
    | took _ hbusy => exact absurd hbusy hidle
    | foundEmpty _ hbusy => exact absurd hbusy hidle
    | _ => cases hphase

/-- The count of a parked node has come to what the settings allow, after every schedule. -/
lemma isFull_after (program : Program) (settings : Settings) (hpos : 0 < settings.idlePolls)
    (schedule : List Mover) (k : Nat) :
    ((start program settings).after schedule).router.IsFull settings.idlePolls k := by
  induction schedule with
  | nil =>
    obtain ⟨halted, hbox⟩ := exists_mailbox_start settings k
    intro hparked
    cases (congrArg Mailbox.parked hbox).symm.trans hparked
  | cons mover earlier ih =>
    have hsound := sound_after program settings earlier
    have hsteps := hsound.steps_move mover
    rcases hsound.move_cases mover k with ⟨n, next, hn, _, hmoves⟩ | ⟨hothers, _⟩
    · rw [(settings_after program settings earlier).2] at hmoves
      exact hmoves.isFull (hsound.fits k n hn)
        ((steps_after program settings earlier).hasPollsLeft hpos
          (hasPollsLeft_start settings hpos k)) ih
    · have hkeeps := hsteps.keeps hothers
      intro hparked
      exact hkeeps.emptyPolls.trans (ih (hkeeps.parked.symm.trans hparked))

/-- What a parked node does in its next move if the mesh is not coming to its end. -/
inductive Awakes (m : Mesh) (k : Nat) : Prop
  | stays (hqueue : (m.router.mailbox k).queue.isEmpty = true)
    (hpoll : (m.router.poll m.idlePolls k).1 = .stay)
    (hmove : (m.move (.node k)).2 = [.stayed k])
  | leaves {value : Word} {rest : Queue Word}
    (hqueue : (m.router.mailbox k).queue.pop? = some (value, rest))
    (hpoll : (m.router.poll m.idlePolls k).1 = m.router.answerWoken k)
    (hanswer : m.router.answerWoken k = .value value)
    (hmove : (m.move (.node k)).2 = [.took k value])

/-- A parked node goes on waiting or gets a value if the mesh is not coming to its end. -/
lemma Moves.event_of_waiting (h : Moves natAddress idlePolls k n r next r' events) {woken : Bool}
    (hphase : n.phase = .waiting woken) (hopen : r.shutdown = false) :
    ∃ event, events = [event] ∧ Step natAddress idlePolls r event r' ∧
      (event = .stayed k ∨ ∃ value, event = .took k value) := by
  cases h with
  | took _ _ hstep => exact ⟨_, rfl, hstep, Or.inr ⟨_, rfl⟩⟩
  | stayed _ hstep => exact ⟨_, rfl, hstep, Or.inl rfl⟩
  | released _ _ hclosed => cases hopen.symm.trans hclosed
  | _ hphase' => cases hphase.symm.trans hphase'

/-- A parked node for which nothing waits goes on waiting, and otherwise it gets a value. -/
lemma Sound.awakes (h : m.Sound) (hparked : (m.router.mailbox k).parked = true)
    (hopen : m.router.shutdown = false) : m.Awakes k := by
  have hpoll : (m.router.poll m.idlePolls k).1 = _ := reply_poll_of_parked hparked
  rcases h.moveNode_cases k with ⟨hnone, _⟩ | ⟨n, next, r, events, hn, hmoves, hmove⟩
  · rw [mailbox_of_size_le _ (h.size ▸ Array.getElem?_eq_none_iff.1 hnone)] at hparked
    cases hparked
  · cases h.fits k n hn with
    | busy _ hawake => cases hawake.symm.trans hparked
    | gone _ hawake => cases hawake.symm.trans hparked
    | waiting hphase =>
      obtain ⟨event, rfl, hstep, rfl | ⟨value, rfl⟩⟩ := hmoves.event_of_waiting hphase hopen
      · cases hstep with
        | stayed _ _ hqueue =>
          rw [hqueue, hopen] at hpoll
          exact .stays hqueue hpoll (congrArg Prod.snd hmove)
      · cases hstep with
        | @took _ _ rest _ _ hqueue =>
          have hanswer : m.router.answerWoken k = .value value := by
            unfold answerWoken
            rw [hopen, hqueue]
            rfl
          rw [Queue.isEmpty_of_pop?_eq_some hqueue] at hpoll
          exact .leaves hqueue hpoll hanswer (congrArg Prod.snd hmove)

/-- With settings that a mesh can run with, after every schedule: the count of empty polls of a node
that is not parked is below what the settings allow, so that it can go up by one without overflow,
and that of a parked node is exactly that.  Between two values that a node gets and packets that it
sends, it is told less often than that that nothing is waiting.  A parked node is never told so: it
gets a value that was waiting, unless the mesh comes to its end. -/
theorem empty_polls_rationed (program : Program) (settings : Settings)
    (hcheck : settings.check = .ok ()) (schedule : List Mover) (k : Nat) :
    let m := (start program settings).after schedule
    let box := m.router.mailbox k
    (box.parked = false → box.emptyPolls < settings.idlePolls ∧
      (box.emptyPolls + 1).toNat = box.emptyPolls.toNat + 1) ∧
    (box.parked = true → box.emptyPolls = settings.idlePolls) ∧
    (∀ later recent earlier,
      (start program settings).history schedule = later ++ recent ++ earlier →
      (∀ event ∈ recent, event.restarts k = false) →
        recent.count (.foundEmpty k) ≤ settings.idlePolls.toNat - 1) ∧
    (box.parked = true → m.router.shutdown = false → m.Awakes k) := by
  intro m box
  have hpos := settings.idlePolls_pos hcheck
  have hsteps := steps_after program settings schedule
  have hstart := hasPollsLeft_start settings hpos k
  refine ⟨fun hawake => ?_, isFull_after program settings hpos schedule k, ?_,
    (sound_after program settings schedule).awakes⟩
  · have hlt := hsteps.hasPollsLeft hpos hstart hawake
    exact ⟨hlt, toNat_succ_of_lt hlt⟩
  · intro later recent earlier hhistory hrecent
    rw [hhistory, List.append_assoc] at hsteps
    obtain ⟨r₂, hsteps, _⟩ := hsteps.exists_of_append
    obtain ⟨r₁, hearlier, hsteps⟩ := hsteps.exists_of_append
    have hfew := (hsteps.count_foundEmpty hpos (hearlier.hasPollsLeft hpos hstart) hrecent).1
    omega

/-- A program that does nothing but poll. -/
def poller : Program := ⟨#[3, 5, 1105, 1, 0].map Word.ofCount⟩

/-- The only node of `poller` is parked after two polls. -/
theorem empty_polls_rationed_poller :
    ({ nodes := 1 } : Settings).check = .ok () ∧
    (((start poller { nodes := 1 }).after (List.replicate 5 (.node 0))).router.mailbox 0).parked =
      true ∧
    (((start poller { nodes := 1 }).after
      (List.replicate 5 (.node 0))).router.mailbox 0).emptyPolls = 2 := by
  have hparked : (((start poller { nodes := 1 }).after
      (List.replicate 5 (.node 0))).router.mailbox 0).parked = true := by decide +kernel
  have hfull := (empty_polls_rationed poller { nodes := 1 } rfl (List.replicate 5 (.node 0))
    0).2.1 hparked
  exact ⟨rfl, hparked, hfull⟩

end Intcode.Mesh
