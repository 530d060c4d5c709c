import Intcode.Proofs.Mesh.Packets

/-!
# When nodes are parked

A node is parked when it has polled its empty queue as often as the settings say since it last got a
value or sent a packet.  A packet takes three values, and only the third one counts as sending it: a
node that emits one value or two between its polls is parked all the same.  What a running node has
done since is its streak (`Streak`), and all of them have one (`hasStreak_after`).
-/

namespace Intcode.Mesh

open Router

/-- What a running node has done since it last got a value or sent a packet. -/
structure Streak (idlePolls : UInt32) (k : Nat) (n : Node) (r : Router) (recent : List Event) :
    Prop where
  /-- It has polled its empty queue and emitted values. -/
  own : ∀ event ∈ recent, event.actor? = some k →
    event = .foundEmpty k ∨ ∃ value, event = .emitted k value
  /-- The router has counted the polls. -/
  polls : recent.count (.foundEmpty k) = (r.mailbox k).emptyPolls.toNat
  /-- One more poll is allowed, at least. -/
  few : (r.mailbox k).emptyPolls.toNat < max 1 idlePolls.toNat
  /-- The values do not make up a packet yet. -/
  emissions : along (Event.emissions k) recent <:+ n.pending

variable {natAddress : Word} {idlePolls : UInt32} {k : Nat} {n next : Node} {r r' : Router}
  {recent events more : List Event} {m : Mesh}

/-- A node that has just got a value or sent a packet has not done anything since. -/
lemma Streak.fresh (h : (r.mailbox k).emptyPolls = 0) : Streak idlePolls k n r [] where
  own := by simp
  polls := by simp [h]
  few := by
    rw [h]
    exact Nat.lt_of_lt_of_le Nat.zero_lt_one (Nat.le_max_left _ _)
  emissions := List.nil_suffix

/-- The count of empty polls does not overflow. -/
lemma Streak.toNat_succ (h : Streak idlePolls k n r recent) :
    ((r.mailbox k).emptyPolls + 1).toNat = (r.mailbox k).emptyPolls.toNat + 1 := by
  have hbound := h.few
  have hlt := idlePolls.toNat_lt
  rw [UInt32.toNat_add]
  exact Nat.mod_eq_of_lt (by simp only [UInt32.toNat_one]; omega)

/-- One more empty poll. -/
lemma Streak.foundEmpty (h : Streak idlePolls k n r recent)
    (hstep : Step natAddress idlePolls r (.foundEmpty k) r') (hpending : next.pending = n.pending) :
    Streak idlePolls k next r' (.foundEmpty k :: recent) := by
  cases hstep with
  | foundEmpty _ hlive _ _ hfew =>
    have hbox := r.mailbox_noteEmptyPoll (r.lt_size_of_halted hlive)
    constructor
    · intro event hmem hactor
      rcases List.mem_cons.1 hmem with rfl | hmem
      · exact Or.inl rfl
      · exact h.own event hmem hactor
    · rw [List.count_cons_self, h.polls, hbox, h.toNat_succ]
    · rw [hbox]
      exact Nat.lt_of_lt_of_le (UInt32.lt_iff_toNat_lt.1 hfew) (Nat.le_max_right _ _)
    · rw [hpending]
      simpa only [along, Event.emissions, List.append_nil] using h.emissions

/-- One more value that does not complete a packet. -/
lemma Streak.emitted (h : Streak idlePolls k n r recent) {value : Word}
    (hpending : next.pending = n.pending ++ [value]) :
    Streak idlePolls k next r (.emitted k value :: recent) where
  own := by
    intro event hmem hactor
    rcases List.mem_cons.1 hmem with rfl | hmem
    · exact Or.inr ⟨value, rfl⟩
    · exact h.own event hmem hactor
  polls := by rw [List.count_cons_of_ne (by simp), h.polls]
  few := h.few
  emissions := by
    have hemission : (Event.emitted k value).emissions k = [value] := if_pos rfl
    obtain ⟨before, hbefore⟩ := h.emissions
    exact ⟨before, by rw [hpending, ← hbefore, along, hemission, List.append_assoc]⟩

/-- Others do nothing about it. -/
lemma Streak.others {wakes : Bool} (h : Streak idlePolls k n r recent)
    (hothers : ∀ event ∈ more, event.actor? ≠ some k) (hkeeps : Keeps wakes r r' k)
    (hpending : next.pending = n.pending) : Streak idlePolls k next r' (more ++ recent) where
  own := by
    intro event hmem hactor
    rcases List.mem_append.1 hmem with hmem | hmem
    · exact absurd hactor (hothers event hmem)
    · exact h.own event hmem hactor
  polls := by
    rw [List.count_append, List.count_eq_zero_of_not_mem fun hmem => hothers _ hmem rfl,
      Nat.zero_add, h.polls, hkeeps.emptyPolls]
  few := hkeeps.emptyPolls ▸ h.few
  emissions := by
    have hnone : along (Event.emissions k) more = [] :=
      along_eq_nil _ fun event hmem => Event.emissions_of_actor? (hothers event hmem)
    rw [along_append, hnone, List.append_nil, hpending]
    exact h.emissions

/-! ## Streaks in a run -/

/-- A running node of a mesh with some events behind it has a streak. -/
def HasStreak (events : List Event) (idlePolls : UInt32) (k : Nat) (n : Node) (r : Router) : Prop :=
  n.phase = .running → ∃ recent older, events = recent ++ older ∧ Streak idlePolls k n r recent

/-- A node that has moved and is running has a streak again. -/
lemma Moves.hasStreak (h : Moves natAddress idlePolls k n r next r' more) (hfits : Fits r k n)
    (hstreak : HasStreak events idlePolls k n r) :
    HasStreak (more ++ events) idlePolls k next r' := by
  intro hrunning
  -- A value that is taken or a packet that is sent begins a new streak; a node that waits or is gone
  -- has none.
  cases h with
  | gone => exact hstreak hrunning
  | halted => cases hrunning
  | failed => cases hrunning
  | computed hphase =>
    obtain ⟨recent, older, hevents, h⟩ := hstreak hphase
    exact ⟨recent, older, hevents, h.own, h.polls, h.few, h.emissions⟩
  | took _ _ hstep =>
    refine ⟨[], _, rfl, .fresh ?_⟩
    cases hstep with
    | took _ hlive _ => rw [r.mailbox_take (r.lt_size_of_halted hlive)]
  | foundEmpty hphase _ hstep =>
    obtain ⟨recent, older, rfl, h⟩ := hstreak hphase
    exact ⟨_, older, rfl, h.foundEmpty hstep rfl⟩
  | parked => cases hrunning
  | stayed => cases hrunning
  | turnedAway => cases hrunning
  | released => cases hrunning
  | emitted hphase =>
    obtain ⟨recent, older, rfl, h⟩ := hstreak hphase
    exact ⟨_, older, rfl, h.emitted rfl⟩
  | passed hphase _ hhands hstep =>
    refine ⟨[], _, rfl, .fresh ?_⟩
    obtain ⟨_, hlive⟩ := hfits.halted_of_busy (hphase ▸ Phase.Busy.running)
    have hbox := r.mailbox_noteSender (r.lt_size_of_halted hlive)
    cases hhands with
    | routed =>
      cases hstep
      rw [mailbox_countRouted, emptyPolls_deliver, hbox]
    | retained =>
      cases hstep
      rw [mailbox_retain, hbox]
    | dropped =>
      cases hstep
      rw [hbox]
  | barred => cases hrunning

/-- After every schedule the running nodes have streaks. -/
theorem hasStreak_after (program : Program) (settings : Settings) (schedule : List Mover)
    (hn : ((start program settings).after schedule).nodes[k]? = some n) :
    HasStreak ((start program settings).history schedule) settings.idlePolls k n
      ((start program settings).after schedule).router := by
  induction schedule generalizing n with
  | nil =>
    obtain ⟨halted, hbox⟩ := exists_mailbox_start settings k
    exact fun _ => ⟨[], [], rfl, .fresh (congrArg Mailbox.emptyPolls hbox)⟩
  | cons mover earlier ih =>
    have hsound := sound_after program settings earlier
    have hpolls := (settings_after program settings earlier).2
    have hsteps := hsound.steps_move mover
    rcases hsound.move_cases mover k with ⟨n₀, next, hn₀, hnext, hmoves⟩ | ⟨hothers, hnodes⟩
    · cases hn.symm.trans hnext
      rw [hpolls] at hmoves
      exact hmoves.hasStreak (hsound.fits k n₀ hn₀) (ih hn₀)
    · intro hrunning
      obtain ⟨n₀, hn₀, hsame⟩ := hnodes n hn
      have hkeeps := hsteps.keeps hothers
      have hpending : n.pending = n₀.pending := by
        rcases hsame with rfl | rfl
        · rfl
        · exact wake_pending n₀
      have hphase : n₀.phase = .running := by
        rcases hsame with rfl | rfl
        · exact hrunning
        · rcases wake_phase n₀ with hsame | ⟨_, _, hwoken⟩
          · exact hsame.symm.trans hrunning
          · cases hrunning.symm.trans hwoken
      obtain ⟨recent, older, hevents, hstreak⟩ := ih hn₀ hphase
      refine ⟨_, older, ?_, hstreak.others hothers hkeeps hpending⟩
      rw [List.append_assoc, ← hevents]
      rfl

/-! ## Being parked -/

/-- Tells whether an event is an input or output instruction of a node. -/
def Event.isExchange (k : Nat) : Event → Bool
  | .took i _ | .foundEmpty i | .parked i | .emitted i _ => i = k
  | _ => false

/-- The input and output instructions of a node, latest first. -/
def exchanges (k : Nat) (events : List Event) : List Event := events.filter (Event.isExchange k)

lemma Event.actor?_of_isExchange {event : Event} (h : event.isExchange k = true) :
    event.actor? = some k := by
  cases event <;> simp_all [Event.isExchange, Event.actor?]

/-- A node that has emitted nothing has only polled its empty queue. -/
lemma Streak.exchanges_eq (h : Streak idlePolls k n r recent)
    (hsilent : along (Event.emissions k) recent = []) :
    exchanges k recent = List.replicate (recent.count (.foundEmpty k)) (.foundEmpty k) := by
  have hall (event : Event) (hmem : event ∈ exchanges k recent) : event = .foundEmpty k := by
    obtain ⟨hmem, hexchange⟩ := List.mem_filter.1 hmem
    rcases h.own event hmem (Event.actor?_of_isExchange hexchange) with hpoll | ⟨value, rfl⟩
    · exact hpoll
    · have hemission : value ∈ along (Event.emissions k) recent :=
        mem_along _ hmem (by simp [Event.emissions])
      rw [hsilent] at hemission
      cases hemission
  have hcount : recent.count (.foundEmpty k) = (exchanges k recent).length := by
    unfold exchanges at hall ⊢
    rw [← List.count_filter (p := Event.isExchange k) (by simp [Event.isExchange])]
    exact List.count_eq_length.2 fun event hmem => (hall event hmem).symm
  rw [hcount]
  exact List.eq_replicate_of_mem hall

/-- A node that is parked was running and has polled its empty queue. -/
lemma Sound.of_parked (h : m.Sound) {mover : Mover} (hmem : .parked k ∈ (m.move mover).2) :
    ∃ n, m.nodes[k]? = some n ∧ n.phase = .running ∧
      (m.router.mailbox k).queue.isEmpty = true ∧
      ¬ (m.router.mailbox k).emptyPolls + 1 < m.idlePolls := by
  rcases h.move_cases mover k with ⟨n, next, hn, _, hmoves⟩ | ⟨hothers, _⟩
  · generalize (m.move mover).2 = events at hmem hmoves
    generalize (m.move mover).1.router = r at hmoves
    cases hmoves with
    | parked hphase _ hstep =>
      cases hstep with
      | parked _ _ _ hqueue hmany => exact ⟨n, hn, hphase, hqueue, hmany⟩
    | passed _ _ hhands =>
      cases hhands <;> simp at hmem
    | _ => simp at hmem
  · exact absurd rfl (hothers _ hmem)

/-- A node is parked when it has polled its empty queue as often as the settings say since it last
got a value or sent a packet, in which time it has emitted two values at most.  If it has emitted
none, these polls are all its latest input and output instructions. -/
theorem parked_after_empty_polls (program : Program) (settings : Settings) (schedule : List Mover)
    (mover : Mover) (k : Nat)
    (h : .parked k ∈ (((start program settings).after schedule).move mover).2) :
    (((start program settings).after schedule).router.mailbox k).queue.isEmpty = true ∧
    ∃ recent older, (start program settings).history schedule = recent ++ older ∧
      recent.count (.foundEmpty k) + 1 = max 1 settings.idlePolls.toNat ∧
      (∀ event ∈ recent, event.actor? = some k →
        event = .foundEmpty k ∨ ∃ value, event = .emitted k value) ∧
      (along (Event.emissions k) recent).length ≤ 2 ∧
      (along (Event.emissions k) recent = [] →
        (exchanges k ((start program settings).history schedule)).take
          (settings.idlePolls.toNat - 1) =
            List.replicate (settings.idlePolls.toNat - 1) (.foundEmpty k)) := by
  obtain ⟨n, hn, hphase, hqueue, hmany⟩ := (sound_after program settings schedule).of_parked h
  obtain ⟨recent, older, hevents, hstreak⟩ := hasStreak_after program settings schedule hn hphase
  have hcount : recent.count (.foundEmpty k) + 1 = max 1 settings.idlePolls.toNat := by
    have hfew := hstreak.few
    rw [(settings_after program settings schedule).2, UInt32.lt_iff_toNat_lt,
      hstreak.toNat_succ] at hmany
    rw [hstreak.polls]
    omega
  refine ⟨hqueue, recent, older, hevents, hcount, hstreak.own, ?_, fun hsilent => ?_⟩
  · have hlength := hstreak.emissions.length_le
    cases composes_after program settings schedule k with
    | pending hshort _ hpending =>
      rw [hpending n hn] at hlength
      omega
    | barred _ _ hgone => cases hphase.symm.trans (hgone n hn)
  · have hpolls : settings.idlePolls.toNat - 1 = recent.count (.foundEmpty k) := by omega
    rw [hevents, exchanges, List.filter_append]
    change (exchanges k recent ++ exchanges k older).take _ = _
    rw [hstreak.exchanges_eq hsilent, hpolls]
    simp

/-- A program that polls, emits one value, and polls again. -/
def mutterer : Program := ⟨#[3, 0, 3, 0, 104, 7, 3, 0].map Word.ofCount⟩

/-- The only node of `mutterer` is parked after one poll, one value and a second poll. -/
theorem parked_after_empty_polls_mutterer :
    .parked 0 ∈ (((start mutterer { nodes := 1 }).after
      [.node 0, .node 0, .node 0]).move (.node 0)).2 ∧
    ∃ recent older, (start mutterer { nodes := 1 }).history [.node 0, .node 0, .node 0] =
        recent ++ older ∧ recent.count (.foundEmpty 0) + 1 = 2 := by
  have hparked : .parked 0 ∈ (((start mutterer { nodes := 1 }).after
      [.node 0, .node 0, .node 0]).move (.node 0)).2 := by decide +kernel
  obtain ⟨_, recent, older, hevents, hcount, _⟩ :=
    parked_after_empty_polls mutterer { nodes := 1 } _ _ 0 hparked
  exact ⟨hparked, recent, older, hevents, hcount⟩

/-- The latest input and output instructions of a parked node need not all be empty polls. -/
theorem not_exchanges_of_parked :
    ¬ ∀ (program : Program) (settings : Settings) (schedule : List Mover) (mover : Mover) (k : Nat),
      settings.check = .ok () →
      .parked k ∈ (((start program settings).after schedule).move mover).2 →
      (exchanges k ((start program settings).history schedule)).take
        (settings.idlePolls.toNat - 1) =
          List.replicate (settings.idlePolls.toNat - 1) (.foundEmpty k) := by
  intro h
  have hparked : .parked 0 ∈ (((start mutterer { nodes := 1 }).after
      [.node 0, .node 0, .node 0]).move (.node 0)).2 := by decide +kernel
  have hpolls := h mutterer { nodes := 1 } [.node 0, .node 0, .node 0] (.node 0) 0 rfl hparked
  revert hpolls
  decide +kernel

end Intcode.Mesh
