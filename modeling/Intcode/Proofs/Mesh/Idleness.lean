import Intcode.Proofs.Mesh.MeshMoves

/-!
# Idle meshes

When every live node is parked and every queue is empty, the mesh is at rest: all that a node can do
is to wake up in vain, and that stays so until the supervisor acts (`Sound.atRest_after`).
Conversely, when no node can do more than that, the mesh is idle or a node has failed
(`Sound.isDue`), and the supervisor has been woken up.  So nobody waits for ever: as long as anybody
can move at all, somebody is ready who does more than wait again (`Sound.exists_ready`).
-/

namespace Intcode.Mesh

open Router

/-- A party does nothing in its next move but wait again. -/
def WaitsAgain (m : Mesh) : Mover → Prop
  | .node k => m.move (.node k) =
    ({ m with nodes := m.nodes.modify k fun n => { n with phase := .waiting false } }, [.stayed k])
  | .supervisor => m.move .supervisor = (m.watchAgain, [])

/-- Every node has halted or is parked with nothing waiting for it, and can do nothing but wait
again. -/
structure AtRest (m : Mesh) : Prop where
  queue : ∀ k, (m.router.mailbox k).queue.isEmpty = true
  phase : ∀ k n, m.nodes[k]? = some n →
    n.phase = .gone ∧ (m.router.mailbox k).halted = true ∨
      (∃ woken, n.phase = .waiting woken) ∧ (m.router.mailbox k).parked = true
  waitsAgain : ∀ k, m.canMove (.node k) = true → m.WaitsAgain (.node k)

variable {m : Mesh} {k : Nat} {n : Node}

/-! ## Waiting in vain -/

/-- A parked node for which nothing waits waits again. -/
lemma Sound.waitsAgain (h : m.Sound) (hn : m.nodes[k]? = some n) {woken : Bool}
    (hphase : n.phase = .waiting woken) (hopen : m.router.shutdown = false)
    (hqueue : (m.router.mailbox k).queue.isEmpty = true) : m.WaitsAgain (.node k) := by
  rcases h.moveNode_cases k with ⟨hnone, _⟩ | ⟨n', next, r, events, hn', hmoves, hmove⟩
  · cases hn.symm.trans hnone
  · cases hn.symm.trans hn'
    cases hmoves with
    | stayed =>
      refine hmove.trans (Prod.ext ?_ rfl)
      have hnodes : m.nodes.setIfInBounds k { n with phase := .waiting false } =
          m.nodes.modify k fun n => { n with phase := .waiting false } := by
        obtain ⟨hk, _⟩ := Array.getElem?_eq_some_iff.1 hn
        refine Array.ext_getElem? fun i => ?_
        rw [Array.getElem?_setIfInBounds, Array.getElem?_modify, if_pos hk]
        split
        · next hi =>
          subst hi
          rw [hn]
          rfl
        · rfl
      exact congrArg (fun nodes => { m with nodes }) hnodes
    | took _ _ hstep =>
      cases hstep with
      | took _ _ hpop =>
        rw [Queue.pop?_eq_none_iff.2 hqueue] at hpop
        cases hpop
    | released _ _ hclosed => cases hopen.symm.trans hclosed
    | gone hphase' => cases hphase.symm.trans hphase'
    | halted hphase' => cases hphase.symm.trans hphase'
    | failed hphase' => cases hphase.symm.trans hphase'
    | computed hphase' => cases hphase.symm.trans hphase'
    | foundEmpty hphase' => cases hphase.symm.trans hphase'
    | parked hphase' => cases hphase.symm.trans hphase'
    | turnedAway hphase' => cases hphase.symm.trans hphase'
    | emitted hphase' => cases hphase.symm.trans hphase'
    | passed hphase' => cases hphase.symm.trans hphase'
    | barred hphase' => cases hphase.symm.trans hphase'

/-- Only a parked node for which nothing waits waits again. -/
lemma Sound.of_waitsAgain (h : m.Sound) (hn : m.nodes[k]? = some n)
    (hwaits : m.WaitsAgain (.node k)) : (∃ woken, n.phase = .waiting woken) ∧
      m.router.shutdown = false ∧ (m.router.mailbox k).queue.isEmpty = true := by
  have hstayed : (m.moveNode k).2 = [.stayed k] := congrArg Prod.snd hwaits
  rcases h.moveNode_cases k with ⟨hnone, _⟩ | ⟨n', next, r, events, hn', hmoves, hmove⟩
  · cases hn.symm.trans hnone
  · cases hn.symm.trans hn'
    rw [hmove] at hstayed
    cases hmoves with
    | @stayed woken hphase hstep =>
      cases hstep with
      | stayed hopen _ hqueue => exact ⟨⟨woken, hphase⟩, hopen, hqueue⟩
    | _ => cases hstayed

/-! ## Nothing happens in an idle mesh -/

lemma Sound.not_ended (h : m.Sound) (hopen : m.router.shutdown = false)
    (result : Except Error Outcome) : m.supervisor.watch ≠ .ended result := by
  have hwatches := h.watches
  intro hwatch
  rw [hwatch] at hwatches
  cases hwatches with
  | ended hclosed => cases hopen.symm.trans hclosed

/-- An idle mesh is at rest, unless a node has failed. -/
lemma Sound.atRest (h : m.Sound) (hopen : m.router.shutdown = false)
    (hidle : m.router.isIdle = true) (hfine : m.router.failure = none) : m.AtRest := by
  have hbox := isIdle_iff.1 hidle
  have hphase (k : Nat) (n : Node) (hn : m.nodes[k]? = some n) :
      n.phase = .gone ∧ (m.router.mailbox k).halted = true ∨
        (∃ woken, n.phase = .waiting woken) ∧ (m.router.mailbox k).parked = true := by
    cases h.fits k n hn with
    | busy _ hparked hhalted =>
      have hstopped := (hbox k).2
      rw [hparked, hhalted] at hstopped
      simp at hstopped
    | @waiting woken hphase _ hparked => exact Or.inr ⟨⟨woken, hphase⟩, hparked⟩
    | gone hphase _ _ hreason =>
      refine Or.inl ⟨hphase, ?_⟩
      rcases hreason with hhalted | hfailed | hclosed
      · exact hhalted
      · exact absurd hfine hfailed
      · cases hopen.symm.trans hclosed
  refine ⟨fun k => (hbox k).1, hphase, fun k hcan => ?_⟩
  obtain ⟨n, hn, hlive⟩ := canMove_node_iff.1 hcan
  rcases hphase k n hn with ⟨hgone, _⟩ | ⟨⟨woken, hwaiting⟩, _⟩
  · exact absurd hgone hlive
  · exact h.waitsAgain hn hwaiting hopen (hbox k).1

/-- A move in which the supervisor does nothing leaves the router of an idle mesh as it is. -/
lemma Sound.router_move_of_idle (h : m.Sound) (hopen : m.router.shutdown = false)
    (hidle : m.router.isIdle = true) (hfine : m.router.failure = none) (mover : Mover)
    (hnodes : ∀ event ∈ (m.move mover).2, event.actor? ≠ none) :
    (m.move mover).1.router = m.router := by
  cases mover with
  | node k =>
    cases hcan : m.canMove (.node k) with
    | false => rw [move_of_canMove_eq_false hcan]
    | true =>
      have hwaits := (h.atRest hopen hidle hfine).waitsAgain k hcan
      exact congrArg (fun result => result.1.router) hwaits
  | supervisor =>
    have hmoves := supervisorMoves_moveSupervisor m
    change ∀ event ∈ m.moveSupervisor.2, _ at hnodes
    change m.moveSupervisor.1.router = _
    generalize m.moveSupervisor = result at hmoves hnodes
    cases hmoves with
    | ended => rfl
    | waited => rfl
    | finished => exact absurd rfl (hnodes _ List.mem_cons_self)
    | injected => exact absurd rfl (hnodes _ List.mem_cons_self)

/-- An idle mesh stays at rest until the supervisor acts. -/
lemma Sound.atRest_after (h : m.Sound) (hopen : m.router.shutdown = false)
    (hidle : m.router.isIdle = true) (hfine : m.router.failure = none) (later : List Mover)
    (hnodes : ∀ event ∈ m.history later, event.actor? ≠ none) :
    (m.after later).router = m.router ∧ (m.after later).AtRest := by
  have hsound (later : List Mover) : (m.after later).Sound := by
    induction later with
    | nil => exact h
    | cons mover earlier ih => exact ih.move mover
  have hrouter : (m.after later).router = m.router := by
    induction later with
    | nil => rfl
    | cons mover earlier ih =>
      have hearlier := ih fun event hmem => hnodes event (List.mem_append_right _ hmem)
      have hmove := (hsound earlier).router_move_of_idle (hearlier ▸ hopen) (hearlier ▸ hidle)
        (hearlier ▸ hfine) mover fun event hmem => hnodes event (List.mem_append_left _ hmem)
      exact hmove.trans hearlier
  refine ⟨hrouter, (hsound later).atRest ?_ ?_ ?_⟩
  · rw [hrouter, hopen]
  · rw [hrouter, hidle]
  · rw [hrouter, hfine]

/-! ## Nobody waits for ever -/

/-- If no node can do more than wait again, the supervisor has something to do. -/
lemma Sound.isDue (h : m.Sound) (hopen : m.router.shutdown = false)
    (hwaits : ∀ k, m.canMove (.node k) = true → m.WaitsAgain (.node k)) : m.router.IsDue := by
  by_cases hfine : m.router.failure = none
  · refine Or.inl (isIdle_iff.2 fun k => ?_)
    cases hn : m.nodes[k]? with
    | none =>
      rw [mailbox_of_size_le _ (h.size ▸ Array.getElem?_eq_none_iff.1 hn)]
      exact ⟨rfl, Or.inr rfl⟩
    | some n =>
      have hcan (hlive : n.phase ≠ .gone) := hwaits k (canMove_node_iff.2 ⟨n, hn, hlive⟩)
      cases h.fits k n hn with
      | busy hphase =>
        have hlive : n.phase ≠ .gone := by
          intro hgone
          rw [hgone] at hphase
          cases hphase
        obtain ⟨⟨woken, hwaiting⟩, _⟩ := h.of_waitsAgain hn (hcan hlive)
        rw [hwaiting] at hphase
        cases hphase
      | waiting hphase _ hparked =>
        have hlive : n.phase ≠ .gone := by simp [hphase]
        exact ⟨(h.of_waitsAgain hn (hcan hlive)).2.2, Or.inl hparked⟩
      | gone _ _ hqueue hreason =>
        rcases hreason with hhalted | hfailed | hclosed
        · exact ⟨hqueue hhalted, Or.inr hhalted⟩
        · exact absurd hfine hfailed
        · cases hopen.symm.trans hclosed
  · exact Or.inr hfine

/-- A supervisor with something to do is ready, and does it. -/
lemma Sound.isReady_supervisor (h : m.Sound) (hopen : m.router.shutdown = false)
    (hdue : m.router.IsDue) :
    m.isReady .supervisor = true ∧ ¬ m.WaitsAgain .supervisor := by
  constructor
  · have hwatches := h.watches
    unfold isReady
    generalize m.supervisor.watch = watch at hwatches
    cases hwatches with
    | looking => rfl
    | waiting _ hwoken => exact hwoken hdue
    | ended hclosed => cases hopen.symm.trans hclosed
  · intro hwaits
    have hmoves := supervisorMoves_moveSupervisor m
    have hnothing : m.moveSupervisor.2 = [] := congrArg Prod.snd hwaits
    generalize m.moveSupervisor = result at hmoves hnothing
    cases hmoves with
    | ended hwatch => exact h.not_ended hopen _ hwatch
    | waited _ hnot => exact hnot hdue
    | finished => cases hnothing
    | injected => cases hnothing

/-- Whoever is parked although a value waits for it or the mesh is coming to its end has been woken
up. -/
lemma Sound.woken (h : m.Sound) (hn : m.nodes[k]? = some n)
    (hparked : (m.router.mailbox k).parked = true)
    (hdue : (m.router.mailbox k).queue.isEmpty = false ∨ m.router.shutdown = true) :
    n.phase = .waiting true := by
  cases h.fits k n hn with
  | busy _ hawake => cases hparked.symm.trans hawake
  | waiting hphase _ _ _ hwoken =>
    rw [hphase, hwoken hdue]
  | gone _ hawake => cases hparked.symm.trans hawake

/-- A node that can do more than wait again is ready. -/
lemma Sound.isReady_node (h : m.Sound) (hcan : m.canMove (.node k) = true)
    (hwaits : ¬ m.WaitsAgain (.node k)) : m.isReady (.node k) = true := by
  obtain ⟨n, hn, hlive⟩ := canMove_node_iff.1 hcan
  refine isReady_node_iff.2 ⟨n, hn, hlive, fun hphase => hwaits ?_⟩
  obtain ⟨_, _, _, hwoken⟩ := (h.fits k n hn).of_waiting hphase
  refine h.waitsAgain hn hphase ?_ ?_
  · by_contra hclosed
    cases hwoken (Or.inr (by simpa using hclosed))
  · by_contra hfull
    cases hwoken (Or.inl (by simpa using hfull))

/-- As long as anybody can move, somebody is ready who does more than wait again. -/
lemma Sound.exists_ready (h : m.Sound) (hcan : ∃ mover, m.canMove mover = true) :
    ∃ mover, m.isReady mover = true ∧ ¬ m.WaitsAgain mover := by
  cases hopen : m.router.shutdown with
  | false =>
    by_cases hdue : m.router.IsDue
    · exact ⟨.supervisor, h.isReady_supervisor hopen hdue⟩
    · have hsome : ¬ ∀ k, m.canMove (.node k) = true → m.WaitsAgain (.node k) :=
        fun hwaits => hdue (h.isDue hopen hwaits)
      push Not at hsome
      obtain ⟨k, hcan, hwaits⟩ := hsome
      exact ⟨.node k, h.isReady_node hcan hwaits, hwaits⟩
  | true =>
    obtain ⟨mover, hcan⟩ := hcan
    cases mover with
    | node k =>
      have hwaits : ¬ m.WaitsAgain (.node k) := by
        intro hwaits
        obtain ⟨n, hn, _⟩ := canMove_node_iff.1 hcan
        cases (h.of_waitsAgain hn hwaits).2.1.symm.trans hopen
      exact ⟨.node k, h.isReady_node hcan hwaits, hwaits⟩
    | supervisor =>
      have hwatches := h.watches
      unfold canMove at hcan
      generalize m.supervisor.watch = watch at hwatches hcan
      cases hwatches with
      | looking hopen' => cases hopen'.symm.trans hopen
      | waiting hopen' => cases hopen'.symm.trans hopen
      | ended => cases hcan

/-- Whatever makes the mesh idle or reports a failure wakes everybody up. -/
lemma Sound.wakes_of_isDue (h : m.Sound) (mover : Mover) (hnot : ¬ m.router.IsDue)
    (hdue : (m.move mover).1.router.IsDue) : (m.move mover).2.any Event.wakes = true := by
  cases mover with
  | node k =>
    change (m.moveNode k).1.router.IsDue at hdue
    change (m.moveNode k).2.any Event.wakes = true
    rcases h.moveNode_cases k with ⟨_, hmove⟩ | ⟨n, next, r, events, hn, hmoves, hmove⟩
    · rw [hmove] at hdue
      exact absurd hdue hnot
    · rw [hmove, router_withNode] at hdue
      rw [hmove]
      by_contra hwakes
      exact hnot (hmoves.isDue (h.fits k n hn) (by simpa using hwakes) hdue)
  | supervisor =>
    have hmoves := supervisorMoves_moveSupervisor m
    change m.moveSupervisor.1.router.IsDue at hdue
    change m.moveSupervisor.2.any Event.wakes = true
    generalize m.moveSupervisor = result at hmoves hdue
    cases hmoves with
    | ended => exact absurd hdue hnot
    | waited => exact absurd hdue hnot
    | finished => rfl
    | injected => rfl

/-- Idleness is stable and the mesh is never stuck, after every schedule.  While the mesh is not
coming to its end: an idle mesh without a failure is at rest and stays so until the supervisor acts;
if no node can do more than wait again, the mesh is idle or a node has failed, and then the
supervisor is ready.  The move that makes it so wakes everybody up; whoever is parked although a
value waits for it or the mesh is coming to its end has been woken up; and either nobody can move
any more or somebody is ready who does more than wait again. -/
theorem idle_stable_and_never_stuck (program : Program) (settings : Settings)
    (schedule : List Mover) :
    let m := (start program settings).after schedule
    (m.router.shutdown = false →
      (m.router.isIdle = true → m.router.failure = none →
        m.AtRest ∧ ∀ later, (∀ event ∈ m.history later, event.actor? ≠ none) →
          (m.after later).router = m.router ∧ (m.after later).AtRest) ∧
      ((∀ k, m.canMove (.node k) = true → m.WaitsAgain (.node k)) → m.router.IsDue) ∧
      (m.router.IsDue → m.isReady .supervisor = true ∧ ¬ m.WaitsAgain .supervisor)) ∧
    (∀ mover, ¬ m.router.IsDue → (m.move mover).1.router.IsDue →
      (m.move mover).2.any Event.wakes = true) ∧
    (∀ k n, m.nodes[k]? = some n → (m.router.mailbox k).parked = true →
      (m.router.mailbox k).queue.isEmpty = false ∨ m.router.shutdown = true →
        n.phase = .waiting true) ∧
    ((∀ mover, m.canMove mover = false) ∨
      ∃ mover, m.isReady mover = true ∧ ¬ m.WaitsAgain mover) := by
  intro m
  have h : m.Sound := sound_after program settings schedule
  refine ⟨fun hopen => ⟨fun hidle hfine => ⟨h.atRest hopen hidle hfine, fun later => ?_⟩, ?_, ?_⟩,
    fun mover => h.wakes_of_isDue mover, fun k n hn => h.woken hn, ?_⟩
  · exact h.atRest_after hopen hidle hfine later
  · exact h.isDue hopen
  · exact h.isReady_supervisor hopen
  · by_cases hcan : ∃ mover, m.canMove mover = true
    · exact Or.inr (h.exists_ready hcan)
    · exact Or.inl fun mover => by simpa using fun hmover => hcan ⟨mover, hmover⟩

end Intcode.Mesh
