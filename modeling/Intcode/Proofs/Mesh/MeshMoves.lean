import Intcode.Proofs.Mesh.NodeMoves

/-!
# Moves of meshes

The parties of a mesh move in any order: a schedule is a list of movers, latest first, and every
list is one (`after`).  A mesh is sound (`Sound`) if every node fits the router and so does the
supervisor: one that waits has been woken up if it has something to do.  Soundness is all that the
later modules need to know about phases and wake-ups.  It holds before the first move and every move
keeps it, so that it holds after every schedule (`sound_after`).
-/

namespace Intcode.Mesh

open Router

/-! ## Schedules -/

/-- The mesh after moves of some parties, the latest first. -/
def after (m : Mesh) : List Mover → Mesh
  | [] => m
  | mover :: earlier => ((m.after earlier).move mover).1

/-- What happens while some parties move, the latest first. -/
def history (m : Mesh) : List Mover → List Event
  | [] => []
  | mover :: earlier => ((m.after earlier).move mover).2 ++ m.history earlier

lemma after_append (m : Mesh) (later earlier : List Mover) :
    m.after (later ++ earlier) = (m.after earlier).after later := by
  induction later with
  | nil => rfl
  | cons mover later ih => exact congrArg (fun m : Mesh => (m.move mover).1) ih

lemma history_append (m : Mesh) (later earlier : List Mover) :
    m.history (later ++ earlier) = (m.after earlier).history later ++ m.history earlier := by
  induction later with
  | nil => rfl
  | cons mover later ih =>
    change ((m.after (later ++ earlier)).move mover).2 ++ m.history (later ++ earlier) = _
    rw [after_append, ih, ← List.append_assoc]
    rfl

/-! ## Moves of a node -/

variable {m : Mesh} {k : Nat} {n next : Node} {r : Router} {events : List Event}

/-- The mesh after a node has moved, given the node and the router afterwards and what has
happened. -/
def withNode (m : Mesh) (k : Nat) (next : Node) (r : Router) (events : List Event) : Mesh :=
  if events.any Event.wakes then
    { m with
      nodes := wakeOthers k (m.nodes.setIfInBounds k next)
      router := r
      supervisor := m.supervisor.wake }
  else { m with nodes := m.nodes.setIfInBounds k next, router := r }

/-- A node that there is not does nothing. -/
lemma moveNode_of_getElem?_eq_none (h : m.nodes[k]? = none) : m.moveNode k = (m, []) := by
  have hk : ¬ k < m.nodes.size := by simpa using h
  unfold moveNode
  simp only [Array.modifyM, hk, dif_neg, not_false_eq_true]
  rfl

lemma moveNode_of_move (hn : m.nodes[k]? = some n)
    (h : n.move (port m.natAddress m.idlePolls k) k (m.router, []) = (next, r, events)) :
    m.moveNode k = (m.withNode k next r events, events) := by
  obtain ⟨hk, rfl⟩ := Array.getElem?_eq_some_iff.1 hn
  have hrun : (m.nodes.modifyM k (Node.move (port m.natAddress m.idlePolls k) k)).run
      (m.router, []) = (m.nodes.setIfInBounds k next, r, events) := by
    simp only [Array.modifyM, hk, dif_pos, StateT.run_bind, StateT.run_pure]
    rw [StateT.run, h, Array.setIfInBounds_def, dif_pos hk]
    simp
    rfl
  unfold moveNode withNode
  simp only [hrun]
  split <;> rfl

lemma canMove_node_iff :
    m.canMove (.node k) = true ↔ ∃ n, m.nodes[k]? = some n ∧ n.phase ≠ .gone := by
  cases hn : m.nodes[k]? <;> simp [canMove, hn]

lemma isReady_node_iff : m.isReady (.node k) = true ↔
    ∃ n, m.nodes[k]? = some n ∧ n.phase ≠ .gone ∧ n.phase ≠ .waiting false := by
  cases hn : m.nodes[k]? <;> simp [isReady, hn]

/-- A party that cannot move does nothing if it is its turn. -/
lemma move_of_canMove_eq_false {mover : Mover} (h : m.canMove mover = false) :
    m.move mover = (m, []) := by
  cases mover with
  | node k =>
    change m.moveNode k = _
    cases hn : m.nodes[k]? with
    | none => exact moveNode_of_getElem?_eq_none hn
    | some n =>
      have hgone : n.phase = .gone := by
        by_contra hphase
        exact absurd (canMove_node_iff.2 ⟨n, hn, hphase⟩) (by simp [h])
      have hmove : n.move (port m.natAddress m.idlePolls k) k (m.router, []) =
          (n, m.router, []) := by
        unfold Node.move
        rw [hgone]
      have hnodes : m.nodes.setIfInBounds k n = m.nodes := by
        obtain ⟨hk, rfl⟩ := Array.getElem?_eq_some_iff.1 hn
        simp [Array.setIfInBounds_def, hk]
      rw [moveNode_of_move hn hmove]
      exact congrArg (fun nodes => ({ m with nodes }, [])) hnodes
  | supervisor =>
    change m.moveSupervisor = _
    unfold moveSupervisor
    unfold canMove at h
    cases hwatch : m.supervisor.watch with
    | ended result => rfl
    | looking => simp [hwatch] at h
    | waiting woken => simp [hwatch] at h

/-! ## Moves of the supervisor -/

/-- What the supervisor may decide on. -/
inductive Decides (m : Mesh) : Except Error Outcome → Prop
  | failed {node : Nat} {cause : Fault} (hfailure : m.router.failure = some (node, cause)) :
    Decides m (.error (.nodeFailed node cause))
  | repeated {y : Word} (hfine : m.router.failure = none) (hidle : m.router.isIdle = true)
    (hrepeated : m.supervisor.repeated = some y) :
    Decides m (.ok {
      firstNatY := m.router.firstNatY.getD y
      repeatedY := y
      injections := m.supervisor.injections
      packetsRouted := m.router.routed })
  | silent (hfine : m.router.failure = none) (hidle : m.router.isIdle = true)
    (hrepeated : m.supervisor.repeated = none) (hnat : m.router.nat = none) :
    Decides m (.error .deadlock)
  | headless {packet : Packet} (hfine : m.router.failure = none) (hidle : m.router.isIdle = true)
    (hrepeated : m.supervisor.repeated = none) (hnat : m.router.nat = some packet)
    (hhalted : (m.router.mailbox 0).halted = true) : Decides m (.error .deadlock)

/-- The mesh with the supervisor waiting. -/
def watchAgain (m : Mesh) : Mesh :=
  { m with supervisor := { m.supervisor with watch := .waiting false } }

/-- What the supervisor can do in one move. -/
inductive SupervisorMoves (m : Mesh) : Mesh × List Event → Prop
  | ended {result : Except Error Outcome} (hwatch : m.supervisor.watch = .ended result) :
    SupervisorMoves m (m, [])
  | waited (hwatch : ∀ result, m.supervisor.watch ≠ .ended result) (hdue : ¬ m.router.IsDue) :
    SupervisorMoves m (m.watchAgain, [])
  | finished {result : Except Error Outcome} (hwatch : ∀ result, m.supervisor.watch ≠ .ended result)
    (hdecides : m.Decides result) : SupervisorMoves m (m.finish result)
  | injected {packet : Packet} (hwatch : ∀ result, m.supervisor.watch ≠ .ended result)
    (hfine : m.router.failure = none) (hidle : m.router.isIdle = true)
    (hrepeated : m.supervisor.repeated = none) (hnat : m.router.nat = some packet)
    (hlive : (m.router.mailbox 0).halted = false) : SupervisorMoves m (m.inject packet)

lemma supervisorMoves_act (hwatch : ∀ result, m.supervisor.watch ≠ .ended result)
    (hdue : m.router.IsDue) : SupervisorMoves m m.act := by
  unfold act
  cases hfailure : m.router.failure with
  | some failure => exact .finished hwatch (.failed hfailure)
  | none =>
    have hidle : m.router.isIdle = true := hdue.resolve_right fun h => h hfailure
    simp only
    cases hrepeated : m.supervisor.repeated with
    | some y => exact .finished hwatch (.repeated hfailure hidle hrepeated)
    | none =>
      simp only
      cases hnat : m.router.nat with
      | none => exact .finished hwatch (.silent hfailure hidle hrepeated hnat)
      | some packet =>
        simp only
        split
        · next hhalted => exact .finished hwatch (.headless hfailure hidle hrepeated hnat hhalted)
        · next hlive =>
          exact .injected hwatch hfailure hidle hrepeated hnat (by simpa using hlive)

/-- The supervisor moves as listed. -/
theorem supervisorMoves_moveSupervisor (m : Mesh) : SupervisorMoves m m.moveSupervisor := by
  have hmoves (hwatch : ∀ result, m.supervisor.watch ≠ .ended result) :
      SupervisorMoves m (if m.router.failure.isNone && !m.router.isIdle then (m.watchAgain, [])
        else m.act) := by
    split
    · next h =>
      simp only [Bool.and_eq_true, Option.isNone_iff_eq_none, Bool.not_eq_true'] at h
      refine .waited hwatch fun hdue => ?_
      rcases hdue with hidle | hfailed
      · rw [h.2] at hidle
        cases hidle
      · exact hfailed h.1
    · next h =>
      refine supervisorMoves_act hwatch ?_
      by_contra hdue
      unfold IsDue at hdue
      simp_all
  unfold moveSupervisor
  cases hwatch : m.supervisor.watch with
  | ended result => exact .ended hwatch
  | looking => exact hmoves (by simp [hwatch])
  | waiting woken => exact hmoves (by simp [hwatch])

/-! ## Soundness -/

/-- How the supervisor stands to the router: if it waits and has something to do, it has been woken
up. -/
inductive Watches (r : Router) : Watch → Prop
  | looking (hopen : r.shutdown = false) : Watches r .looking
  | waiting {woken : Bool} (hopen : r.shutdown = false) (hwoken : r.IsDue → woken = true) :
    Watches r (.waiting woken)
  | ended {result : Except Error Outcome} (hclosed : r.shutdown = true) : Watches r (.ended result)

/-- A mesh in which everybody fits the router. -/
structure Sound (m : Mesh) : Prop where
  /-- There is a mailbox for each node. -/
  size : m.router.mailboxes.size = m.nodes.size
  /-- Every node fits the router. -/
  fits : ∀ k n, m.nodes[k]? = some n → Fits m.router k n
  /-- So does the supervisor. -/
  watches : Watches m.router m.supervisor.watch

lemma Watches.wake {s : Supervisor} (h : Watches m.router s.watch)
    (hshut : r.shutdown = m.router.shutdown) : Watches r s.wake.watch := by
  unfold Supervisor.wake
  generalize hwatch : s.watch = watch at h
  cases h with
  | looking hopen =>
    simp only [hwatch]
    exact .looking (hshut.trans hopen)
  | waiting hopen => exact .waiting (hshut.trans hopen) fun _ => rfl
  | ended hclosed =>
    simp only [hwatch]
    exact .ended (hshut.trans hclosed)

lemma Watches.congr {watch : Watch} (h : Watches m.router watch)
    (hshut : r.shutdown = m.router.shutdown) (hdue : r.IsDue → m.router.IsDue) :
    Watches r watch := by
  cases h with
  | looking hopen => exact .looking (hshut.trans hopen)
  | waiting hopen hwoken => exact .waiting (hshut.trans hopen) (hwoken ∘ hdue)
  | ended hclosed => exact .ended (hshut.trans hclosed)

/-- What has become of the nodes after one of them has moved. -/
lemma getElem?_nodes_withNode (hk : k < m.nodes.size) (i : Nat) :
    (m.withNode k next r events).nodes[i]? =
      if i = k then some next
      else m.nodes[i]?.map fun n => if events.any Event.wakes then n.wake else n := by
  unfold withNode wakeOthers
  by_cases h : i = k
  · subst h
    rw [if_pos rfl]
    split
    · simp [hk]
    · simp [hk]
  · rw [if_neg h]
    split
    · simp [h, Ne.symm h]
    · simp [Ne.symm h]

lemma settings_withNode : (m.withNode k next r events).natAddress = m.natAddress ∧
    (m.withNode k next r events).idlePolls = m.idlePolls := by
  unfold withNode
  cases events.any Event.wakes with
  | true => exact ⟨rfl, rfl⟩
  | false => exact ⟨rfl, rfl⟩

lemma size_nodes_withNode : (m.withNode k next r events).nodes.size = m.nodes.size := by
  unfold withNode wakeOthers
  split <;> simp

lemma router_withNode : (m.withNode k next r events).router = r := by
  unfold withNode
  split <;> rfl

lemma supervisor_withNode : (m.withNode k next r events).supervisor =
    if events.any Event.wakes then m.supervisor.wake else m.supervisor := by
  unfold withNode
  split <;> rfl

/-- Everybody fits the router after a node has moved. -/
lemma Sound.withNode {natAddress : Word} {idlePolls : UInt32} (h : m.Sound)
    (hn : m.nodes[k]? = some n)
    (hmoves : Moves natAddress idlePolls k n m.router next r events) :
    (m.withNode k next r events).Sound := by
  obtain ⟨hk, _⟩ := Array.getElem?_eq_some_iff.1 hn
  have hfits := h.fits k n hn
  have hsteps := hmoves.steps
  have hkeeps (i : Nat) (hi : i ≠ k) : Keeps (events.any Event.wakes) m.router r i := by
    refine hsteps.keeps fun event hmem => ?_
    rw [hmoves.actor? event hmem]
    exact fun heq => hi (Option.some.inj heq).symm
  have hshut : r.shutdown = m.router.shutdown := by
    refine hsteps.shutdown fun hmem => ?_
    cases hmoves.actor? _ hmem
  constructor
  · rw [router_withNode, size_nodes_withNode, hsteps.size, h.size]
  · intro i n' hn'
    rw [router_withNode]
    rw [getElem?_nodes_withNode hk] at hn'
    by_cases hi : i = k
    · subst hi
      rw [if_pos rfl] at hn'
      cases hn'
      exact hmoves.fits hfits
    · rw [if_neg hi, Option.map_eq_some_iff] at hn'
      obtain ⟨n₀, hn₀, rfl⟩ := hn'
      exact (h.fits i n₀ hn₀).keeps (hkeeps i hi)
  · rw [router_withNode, supervisor_withNode]
    cases hwakes : events.any Event.wakes with
    | true => exact h.watches.wake hshut
    | false => exact h.watches.congr hshut (hmoves.isDue hfits hwakes)

/-- Everybody is woken up when the supervisor acts. -/
lemma Fits.wake (hfits : ∀ k n, m.nodes[k]? = some n → Fits m.router k n)
    (hkeeps : ∀ k, Keeps true m.router r k) (hn : (m.nodes.map Node.wake)[k]? = some n) :
    Fits r k n := by
  rw [Array.getElem?_map, Option.map_eq_some_iff] at hn
  obtain ⟨n₀, hn₀, rfl⟩ := hn
  exact (hfits k n₀ hn₀).keeps (hkeeps k)

/-- The supervisor watches a mesh that is not coming to its end. -/
lemma Sound.shutdown_of_watch (h : m.Sound)
    (hwatch : ∀ result, m.supervisor.watch ≠ .ended result) : m.router.shutdown = false := by
  have hwatches := h.watches
  generalize hwatch' : m.supervisor.watch = watch at hwatches
  cases hwatches with
  | looking hopen => exact hopen
  | waiting hopen => exact hopen
  | ended => exact absurd hwatch' (hwatch _)

/-- Everybody fits the router after the supervisor has moved. -/
lemma Sound.moveSupervisor (h : m.Sound) : m.moveSupervisor.1.Sound := by
  have hmoves := supervisorMoves_moveSupervisor m
  generalize m.moveSupervisor = result at hmoves
  cases hmoves with
  | ended => exact h
  | waited hwatch hdue =>
    exact ⟨h.size, h.fits, .waiting (h.shutdown_of_watch hwatch) fun hdue' => absurd hdue' hdue⟩
  | @finished result hwatch =>
    have hstep : Step m.natAddress m.idlePolls m.router .shutDown
      { m.router with shutdown := true } := .shutDown
    refine ⟨?_, fun k n hn => ?_, .ended rfl⟩
    · exact h.size.trans (Array.size_map).symm
    · exact Fits.wake h.fits (fun k => hstep.keeps (by simp [Event.actor?])) hn
  | @injected packet hwatch hfine hidle hrepeated hnat hlive =>
    have hstep : Step m.natAddress m.idlePolls m.router (.injected packet)
      (m.router.deliver 0 packet) := .injected (h.shutdown_of_watch hwatch) hfine hidle hnat hlive
    refine ⟨?_, fun k n hn => ?_, .waiting (h.shutdown_of_watch hwatch) fun hdue => ?_⟩
    · exact (hstep.size.trans h.size).trans (Array.size_map).symm
    · exact Fits.wake h.fits (fun k => hstep.keeps (by simp [Event.actor?])) hn
    · rcases hdue with hidle' | hfailed
      · have hempty := (isIdle_iff.1 hidle' 0).1
        change ((m.router.deliver 0 packet).mailbox 0).queue.isEmpty = true at hempty
        rw [mailbox_deliver _ (m.router.lt_size_of_halted hlive), Queue.isEmpty_iff,
          Queue.toList_push] at hempty
        simp at hempty
      · exact absurd hfine hfailed

/-! ## Soundness after every schedule -/

/-- A node of a sound mesh moves as listed. -/
lemma Sound.moveNode_cases (h : m.Sound) (k : Nat) :
    m.nodes[k]? = none ∧ m.moveNode k = (m, []) ∨
      ∃ n next r events, m.nodes[k]? = some n ∧
        Moves m.natAddress m.idlePolls k n m.router next r events ∧
        m.moveNode k = (m.withNode k next r events, events) := by
  cases hn : m.nodes[k]? with
  | none => exact Or.inl ⟨rfl, moveNode_of_getElem?_eq_none hn⟩
  | some n =>
    rcases hmove : n.move (port m.natAddress m.idlePolls k) k (m.router, []) with
      ⟨next, r, events⟩
    exact Or.inr ⟨n, next, r, events, rfl, moves_move (h.fits k n hn) hmove,
      moveNode_of_move hn hmove⟩

/-- All that happens in a move of a node is done by that node. -/
lemma Sound.actor?_moveNode (h : m.Sound) {event : Event} (hmem : event ∈ (m.moveNode k).2) :
    event.actor? = some k := by
  rcases h.moveNode_cases k with ⟨_, hmove⟩ | ⟨n, next, r, events, _, hmoves, hmove⟩
  · rw [hmove] at hmem
    cases hmem
  · rw [hmove] at hmem
    exact hmoves.actor? event hmem

/-- Whoever does something in a move is the one who moves. -/
lemma Sound.eq_of_actor? (h : m.Sound) {mover : Mover} {event : Event}
    (hmem : event ∈ (m.move mover).2) (hactor : event.actor? = some k) : mover = .node k := by
  cases mover with
  | node i => exact congrArg _ (Option.some.inj ((h.actor?_moveNode hmem).symm.trans hactor))
  | supervisor =>
    change event ∈ m.moveSupervisor.2 at hmem
    have hmoves := supervisorMoves_moveSupervisor m
    generalize m.moveSupervisor = result at hmoves hmem
    cases hmoves with
    | ended => cases hmem
    | waited => cases hmem
    | finished =>
      cases List.mem_singleton.1 hmem
      cases hactor
    | injected =>
      cases List.mem_singleton.1 hmem
      cases hactor

/-- Every move of a sound mesh leaves a sound mesh behind. -/
theorem Sound.move (h : m.Sound) (mover : Mover) : (m.move mover).1.Sound := by
  cases mover with
  | supervisor => exact h.moveSupervisor
  | node k =>
    change (m.moveNode k).1.Sound
    rcases h.moveNode_cases k with ⟨_, hmove⟩ | ⟨n, next, r, events, hn, hmoves, hmove⟩
    · rw [hmove]
      exact h
    · rw [hmove]
      exact h.withNode hn hmoves

/-- A mesh is sound before the first move. -/
theorem sound_start (program : Program) (settings : Settings) : (start program settings).Sound := by
  refine ⟨?_, fun k n hn => ?_, .looking rfl⟩
  · simp [start, Router.start]
  · unfold start at hn
    simp only [Array.getElem?_map, Option.map_eq_some_iff] at hn
    obtain ⟨k', hk', rfl⟩ := hn
    have hk : k < settings.nodes.toNat := by
      obtain ⟨hk, _⟩ := Array.getElem?_eq_some_iff.1 hk'
      simpa using hk
    have hbox : (start program settings).router.mailbox k = ⟨.empty, 0, false, false⟩ :=
      mailbox_start hk
    exact .busy .running (by rw [hbox]) (by rw [hbox])

/-- A mesh is sound after every schedule. -/
theorem sound_after (program : Program) (settings : Settings) (schedule : List Mover) :
    ((start program settings).after schedule).Sound := by
  induction schedule with
  | nil => exact sound_start program settings
  | cons mover earlier ih => exact ih.move mover

/-! ## The router while a mesh goes on -/

lemma wake_pending (n : Node) : n.wake.pending = n.pending := by
  unfold Node.wake
  split <;> rfl

/-- Only a node that waits can be woken up. -/
lemma wake_phase (n : Node) :
    n.wake.phase = n.phase ∨ ∃ woken, n.phase = .waiting woken ∧ n.wake.phase = .waiting true := by
  unfold Node.wake
  split
  · next woken hphase => exact Or.inr ⟨woken, hphase, rfl⟩
  · exact Or.inl rfl

/-- No move changes what a mesh is set to. -/
lemma settings_move (m : Mesh) (mover : Mover) : (m.move mover).1.natAddress = m.natAddress ∧
    (m.move mover).1.idlePolls = m.idlePolls := by
  cases mover with
  | node k =>
    change (m.moveNode k).1.natAddress = _ ∧ (m.moveNode k).1.idlePolls = _
    cases hn : m.nodes[k]? with
    | none =>
      rw [moveNode_of_getElem?_eq_none hn]
      exact ⟨rfl, rfl⟩
    | some n =>
      rw [moveNode_of_move hn rfl]
      exact settings_withNode
  | supervisor =>
    change m.moveSupervisor.1.natAddress = _ ∧ m.moveSupervisor.1.idlePolls = _
    have hmoves := supervisorMoves_moveSupervisor m
    generalize m.moveSupervisor = result at hmoves
    cases hmoves <;> exact ⟨rfl, rfl⟩

lemma settings_after (program : Program) (settings : Settings) (schedule : List Mover) :
    ((start program settings).after schedule).natAddress = settings.natAddress ∧
      ((start program settings).after schedule).idlePolls = settings.idlePolls := by
  induction schedule with
  | nil => exact ⟨rfl, rfl⟩
  | cons mover earlier ih =>
    obtain ⟨hnat, hpolls⟩ := settings_move ((start program settings).after earlier) mover
    exact ⟨hnat.trans ih.1, hpolls.trans ih.2⟩

/-- The router of a sound mesh makes steps in every move. -/
lemma Sound.steps_move (h : m.Sound) (mover : Mover) :
    Steps m.natAddress m.idlePolls m.router (m.move mover).2 (m.move mover).1.router := by
  cases mover with
  | node k =>
    change Steps _ _ _ (m.moveNode k).2 (m.moveNode k).1.router
    rcases h.moveNode_cases k with ⟨_, hmove⟩ | ⟨n, next, r, events, _, hmoves, hmove⟩
    · rw [hmove]
      exact .nil
    · rw [hmove, router_withNode]
      exact hmoves.steps
  | supervisor =>
    change Steps _ _ _ m.moveSupervisor.2 m.moveSupervisor.1.router
    have hmoves := supervisorMoves_moveSupervisor m
    generalize m.moveSupervisor = result at hmoves
    cases hmoves with
    | ended => exact .nil
    | waited => exact .nil
    | finished => exact Step.shutDown.steps
    | injected hwatch hfine hidle hrepeated hnat hlive =>
      exact (Step.injected (h.shutdown_of_watch hwatch) hfine hidle hnat hlive).steps

/-- To a node, a move of a sound mesh is a move of its own, or others act and may wake it up. -/
lemma Sound.move_cases (h : m.Sound) (mover : Mover) (k : Nat) :
    (∃ n next, m.nodes[k]? = some n ∧ (m.move mover).1.nodes[k]? = some next ∧
        Moves m.natAddress m.idlePolls k n m.router next (m.move mover).1.router
          (m.move mover).2) ∨
      (∀ event ∈ (m.move mover).2, event.actor? ≠ some k) ∧
        ∀ next, (m.move mover).1.nodes[k]? = some next →
          ∃ n, m.nodes[k]? = some n ∧ (next = n ∨ next = n.wake) := by
  cases mover with
  | node i =>
    change (∃ n next, _ ∧ (m.moveNode i).1.nodes[k]? = _ ∧ Moves _ _ k n _ next
      (m.moveNode i).1.router (m.moveNode i).2) ∨ (∀ event ∈ (m.moveNode i).2, _) ∧
      ∀ next, (m.moveNode i).1.nodes[k]? = _ → _
    rcases h.moveNode_cases i with ⟨_, hmove⟩ | ⟨n, next, r, events, hn, hmoves, hmove⟩
    · rw [hmove]
      exact Or.inr ⟨by simp, fun next hnext => ⟨next, hnext, Or.inl rfl⟩⟩
    · obtain ⟨hi, _⟩ := Array.getElem?_eq_some_iff.1 hn
      rw [hmove]
      by_cases hki : k = i
      · subst hki
        refine Or.inl ⟨n, next, hn, ?_, ?_⟩
        · rw [getElem?_nodes_withNode hi, if_pos rfl]
        · rwa [router_withNode]
      · refine Or.inr ⟨fun event hmem hactor => ?_, fun next' hnext => ?_⟩
        · exact hki (Option.some.inj (hactor.symm.trans (hmoves.actor? event hmem)))
        · rw [getElem?_nodes_withNode hi, if_neg hki, Option.map_eq_some_iff] at hnext
          obtain ⟨n₀, hn₀, rfl⟩ := hnext
          refine ⟨n₀, hn₀, ?_⟩
          cases events.any Event.wakes with
          | true => exact Or.inr rfl
          | false => exact Or.inl rfl
  | supervisor =>
    change _ ∨ (∀ event ∈ m.moveSupervisor.2, _) ∧ ∀ next, m.moveSupervisor.1.nodes[k]? = _ → _
    have hmoves := supervisorMoves_moveSupervisor m
    have hwoken (next : Node) (hnext : (m.nodes.map Node.wake)[k]? = some next) :
        ∃ n, m.nodes[k]? = some n ∧ (next = n ∨ next = n.wake) := by
      rw [Array.getElem?_map, Option.map_eq_some_iff] at hnext
      obtain ⟨n, hn, rfl⟩ := hnext
      exact ⟨n, hn, Or.inr rfl⟩
    generalize m.moveSupervisor = result at hmoves
    cases hmoves with
    | ended => exact Or.inr ⟨by simp, fun next hnext => ⟨next, hnext, Or.inl rfl⟩⟩
    | waited => exact Or.inr ⟨by simp, fun next hnext => ⟨next, hnext, Or.inl rfl⟩⟩
    | finished => exact Or.inr ⟨by simp [finish, Event.actor?], hwoken⟩
    | injected => exact Or.inr ⟨by simp [inject, Event.actor?], hwoken⟩

/-- The router makes steps in the course of every schedule. -/
theorem steps_after (program : Program) (settings : Settings) (schedule : List Mover) :
    Steps settings.natAddress settings.idlePolls (Router.start settings)
      ((start program settings).history schedule)
      ((start program settings).after schedule).router := by
  induction schedule with
  | nil => exact .nil
  | cons mover earlier ih =>
    have hsteps := (sound_after program settings earlier).steps_move mover
    obtain ⟨hnat, hpolls⟩ := settings_after program settings earlier
    rw [hnat, hpolls] at hsteps
    exact ih.append hsteps

end Intcode.Mesh
