import Intcode.Proofs.Mesh.Protocol

/-!
# Failures of nodes

A node whose machine faults reports that in a later move, and between the two everybody else may
move.  No run can come to its end meanwhile as if nothing had happened: from the fault on the mesh
is hurt (`IsHurt`), and it stays so in every move (`Sound.isHurt_move`).  The supervisor decides on
an outcome, or finds the mesh stuck, only while all nodes wait and no failure has been reported, and
then dismisses it (`Sound.dismissed_of_decides`).  After that decision nodes can only be turned away
(`Sound.dismissed_move`), so that a mesh that ends well has never been hurt, before the decision or
after it.

The failure that ends a run is the one that was reported first (`Router.Steps.failure`).
-/

namespace Intcode.Mesh

open Router

variable {m : Mesh} {k : Nat} {n : Node}

/-! ## Faults of machines -/

/-- The fault that a node's machine returns when the node moves, if it executes an instruction and
the instruction faults. A node that breaks off, since no tape can keep the cell that it refers to,
returns `Fault.capacity`. -/
def Node.fault? (port : Port Desk) (r : Router) (n : Node) : Option Fault :=
  match n.phase with
  | .running | .waiting _ =>
    match (n.machine.execute port ⟨r, n.pending, []⟩).answer with
    | .error fault => some fault
    | .ok _ => none
  | _ => none

/-- The fault that a machine returns in a move, if there is one. -/
def fault? (m : Mesh) : Mover → Option Fault
  | .node k => m.nodes[k]?.bind fun n => n.fault? (port m.natAddress m.idlePolls k) m.router
  | .supervisor => none

/-- A machine that returns a fault is one that executes an instruction. -/
lemma Node.answer_of_fault? {port : Port Desk} {r : Router} {fault : Fault}
    (h : n.fault? port r = some fault) :
    (n.phase = .running ∨ ∃ woken, n.phase = .waiting woken) ∧
      (n.machine.execute port ⟨r, n.pending, []⟩).answer = .error fault := by
  have hanswer (h : (match (n.machine.execute port ⟨r, n.pending, []⟩).answer with
      | .error fault => some fault
      | .ok _ => none) = some fault) :
      (n.machine.execute port ⟨r, n.pending, []⟩).answer = .error fault := by
    split at h
    · next heq => rw [heq, Option.some.inj h]
    · cases h
  unfold Node.fault? at h
  split at h
  · next hphase => exact ⟨Or.inl hphase, hanswer h⟩
  · next woken hphase => exact ⟨Or.inr ⟨woken, hphase⟩, hanswer h⟩
  · cases h

/-! ## Meshes that are hurt -/

/-- A node has faulted: it is still to report that, or the router knows of a failure. -/
def IsHurt (m : Mesh) : Prop :=
  m.router.failure ≠ none ∨
    ∃ (k : Nat) (n : Node) (cause : Fault), m.nodes[k]? = some n ∧ n.phase = .failing cause

/-- A node that goes away after an instruction has been turned away. -/
lemma Moves.shutdown_of_gone {natAddress : Word} {idlePolls : UInt32} {next : Node} {r r' : Router}
    {events : List Event} (h : Moves natAddress idlePolls k n r next r' events)
    (hphase : n.phase = .running ∨ ∃ woken, n.phase = .waiting woken)
    (hgone : next.phase = .gone) : r.shutdown = true := by
  have hlive : n.phase ≠ .gone ∧ n.phase ≠ .halting ∧ ∀ cause, n.phase ≠ .failing cause := by
    rcases hphase with hphase | ⟨woken, hphase⟩
    · simp [hphase]
    · simp [hphase]
  obtain ⟨hnotGone, hnotHalting, hnotFailing⟩ := hlive
  have hbusy {phase : Phase} (hphase : phase.Busy) : phase ≠ .gone := by
    rintro rfl
    cases hphase
  cases h with
  | gone hphase => exact absurd hphase hnotGone
  | halted hphase => exact absurd hphase hnotHalting
  | failed hphase => exact absurd hphase (hnotFailing _)
  | computed _ hphase => exact absurd hgone (hbusy hphase)
  | took _ hphase => exact absurd hgone (hbusy hphase)
  | foundEmpty _ hphase => exact absurd hgone (hbusy hphase)
  | parked => cases hgone
  | stayed => cases hgone
  | turnedAway _ hclosed => exact hclosed
  | released _ _ hclosed => exact hclosed
  | emitted => cases hgone
  | passed => cases hgone
  | barred _ _ hclosed => exact hclosed

/-- A machine that returns a fault has been turned away from a router that is shut down, or the mesh
is hurt from then on. -/
lemma Sound.of_fault? (h : m.Sound) {mover : Mover} {fault : Fault}
    (hfault : m.fault? mover = some fault) :
    fault = .channelClosed ∧ m.router.shutdown = true ∨ (m.move mover).1.IsHurt := by
  cases mover with
  | supervisor => cases hfault
  | node k =>
    obtain ⟨n, hn, hfault⟩ := Option.bind_eq_some_iff.1 hfault
    obtain ⟨hphase, hanswer⟩ := Node.answer_of_fault? hfault
    rcases hturn : n.machine.execute (port m.natAddress m.idlePolls k) ⟨m.router, n.pending, []⟩
      with ⟨answer, machine, desk⟩
    rw [hturn] at hanswer
    change answer = .error fault at hanswer
    subst hanswer
    have hmove := move_eq hphase hturn
    by_cases hclosed : fault = .channelClosed
    · subst hclosed
      have hmoves := moves_move (h.fits k n hn) hmove
      exact Or.inl ⟨rfl, hmoves.shutdown_of_gone hphase rfl⟩
    · right
      have hafter : Phase.after (.error fault) = .failing fault := by
        unfold Phase.after
        split
        · next heq => cases heq
        · next heq => cases heq
        · next heq => cases heq
        · next heq => exact absurd (Except.error.inj heq) hclosed
        · next heq => rw [Except.error.inj heq]
      have hk := (Array.getElem?_eq_some_iff.1 hn).1
      change (m.moveNode k).1.IsHurt
      rw [moveNode_of_move hn hmove]
      refine Or.inr ⟨k, ⟨machine, desk.pending, .after (.error fault)⟩, fault, ?_, hafter⟩
      rw [getElem?_nodes_withNode hk, if_pos rfl]

/-- A failure that has been reported is not forgotten. -/
lemma Router.Step.failure_mono {natAddress : Word} {idlePolls : UInt32} {r r' : Router}
    {event : Event} (h : Step natAddress idlePolls r event r') (hfailure : r.failure ≠ none) :
    r'.failure ≠ none := by
  cases h with
  | @failed k cause =>
    change r.failure.or (some (k, cause)) ≠ none
    simp
  | _ => exact hfailure

lemma Router.Steps.failure_mono {natAddress : Word} {idlePolls : UInt32} {r r' : Router}
    {events : List Event} (h : Steps natAddress idlePolls r events r')
    (hfailure : r.failure ≠ none) : r'.failure ≠ none := by
  induction h with
  | nil => exact hfailure
  | cons _ hstep ih => exact hstep.failure_mono ih

/-- No node is added or lost in a move. -/
lemma Sound.size_nodes_move (h : m.Sound) (mover : Mover) :
    (m.move mover).1.nodes.size = m.nodes.size := by
  have hafter := (h.move mover).size
  have hsteps := (h.steps_move mover).size
  rw [← hafter, hsteps, h.size]

/-- A node that has to report a failure does so when it moves, and nothing else can happen to it. -/
lemma Moves.of_failing {natAddress : Word} {idlePolls : UInt32} {next : Node} {r r' : Router}
    {events : List Event} {cause : Fault} (h : Moves natAddress idlePolls k n r next r' events)
    (hphase : n.phase = .failing cause) : r'.failure ≠ none := by
  cases h with
  | @failed cause =>
    change r.failure.or (some (k, cause)) ≠ none
    simp
  | took hphase' =>
    rcases hphase' with hphase' | ⟨woken, hphase'⟩
    · cases hphase.symm.trans hphase'
    · cases hphase.symm.trans hphase'
  | gone hphase' => cases hphase.symm.trans hphase'
  | halted hphase' => cases hphase.symm.trans hphase'
  | computed hphase' => cases hphase.symm.trans hphase'
  | foundEmpty hphase' => cases hphase.symm.trans hphase'
  | parked hphase' => cases hphase.symm.trans hphase'
  | stayed hphase' => cases hphase.symm.trans hphase'
  | turnedAway hphase' => cases hphase.symm.trans hphase'
  | released hphase' => cases hphase.symm.trans hphase'
  | emitted hphase' => cases hphase.symm.trans hphase'
  | passed hphase' => cases hphase.symm.trans hphase'
  | barred hphase' => cases hphase.symm.trans hphase'

/-- A mesh that is hurt stays so, whoever moves. -/
theorem Sound.isHurt_move (h : m.Sound) (hhurt : m.IsHurt) (mover : Mover) :
    (m.move mover).1.IsHurt := by
  rcases hhurt with hfailure | ⟨k, n, cause, hn, hphase⟩
  · exact Or.inl ((h.steps_move mover).failure_mono hfailure)
  · -- The node that is still to report either does so now, or is left in the same phase.
    rcases h.move_cases mover k with ⟨n', next, hn', _, hmoves⟩ | ⟨_, hothers⟩
    · cases hn.symm.trans hn'
      exact Or.inl (hmoves.of_failing hphase)
    · have hk : k < (m.move mover).1.nodes.size := by
        rw [h.size_nodes_move]
        exact (Array.getElem?_eq_some_iff.1 hn).1
      obtain ⟨n', hn', hsame⟩ := hothers _ (Array.getElem?_eq_getElem hk)
      cases hn.symm.trans hn'
      refine Or.inr ⟨k, _, cause, Array.getElem?_eq_getElem hk, ?_⟩
      rcases hsame with hsame | hsame
      · rw [hsame, hphase]
      · rw [hsame]
        rcases wake_phase n with hwake | ⟨woken, hwaiting, _⟩
        · exact hwake.trans hphase
        · cases hphase.symm.trans hwaiting

/-- A mesh that has been hurt once is hurt after every further schedule. -/
lemma isHurt_after (program : Program) (settings : Settings) (later earlier : List Mover)
    (hhurt : ((start program settings).after earlier).IsHurt) :
    ((start program settings).after (later ++ earlier)).IsHurt := by
  induction later with
  | nil => exact hhurt
  | cons mover later ih =>
    exact (sound_after program settings (later ++ earlier)).isHurt_move ih mover

/-! ## The decision -/

/-- How a run may end other than by a failure. -/
def EndsFine (result : Except Error Outcome) : Prop :=
  (∃ outcome, result = .ok outcome) ∨ result = .error .deadlock

/-- What the supervisor decides on, unless it is a failure, it decides on while the mesh is idle and
no failure has been reported. -/
lemma Decides.idle {result : Except Error Outcome} (h : m.Decides result)
    (hresult : EndsFine result) : m.router.isIdle = true ∧ m.router.failure = none := by
  cases h with
  | failed =>
    rcases hresult with ⟨outcome, hresult⟩ | hresult
    · cases hresult
    · cases hresult
  | repeated hfine hidle => exact ⟨hidle, hfine⟩
  | silent hfine hidle => exact ⟨hidle, hfine⟩
  | headless hfine hidle => exact ⟨hidle, hfine⟩

/-! ## After the decision -/

/-- A mesh that is coming to its end without a failure, and in which no node has anything left to do
but to be turned away. -/
structure Dismissed (m : Mesh) : Prop where
  closed : m.router.shutdown = true
  fine : m.router.failure = none
  phase : ∀ (k : Nat) (n : Node), m.nodes[k]? = some n →
    n.phase = .gone ∨ ∃ woken, n.phase = .waiting woken

lemma Dismissed.not_isHurt (h : m.Dismissed) : ¬ m.IsHurt := by
  rintro (hfailure | ⟨k, n, cause, hn, hphase⟩)
  · exact hfailure h.fine
  · rcases h.phase k n hn with hgone | ⟨woken, hwaiting⟩
    · cases hphase.symm.trans hgone
    · cases hphase.symm.trans hwaiting

/-- A node that is parked when the mesh comes to its end can only be turned away. -/
lemma Moves.of_dismissed {natAddress : Word} {idlePolls : UInt32} {next : Node} {r r' : Router}
    {events : List Event} (h : Moves natAddress idlePolls k n r next r' events)
    (hclosed : r.shutdown = true)
    (hphase : n.phase = .gone ∨ ∃ woken, n.phase = .waiting woken) :
    next.phase = .gone ∧ r'.failure = r.failure := by
  have hidle : n.phase ≠ .running ∧ n.phase ≠ .halting ∧ ∀ cause, n.phase ≠ .failing cause := by
    rcases hphase with hphase | ⟨woken, hphase⟩
    · simp [hphase]
    · simp [hphase]
  obtain ⟨hnotRunning, hnotHalting, hnotFailing⟩ := hidle
  cases h with
  | gone hgone => exact ⟨hgone, rfl⟩
  | released => exact ⟨rfl, rfl⟩
  | took _ _ hstep =>
    cases hstep with
    | took hopen => cases hopen.symm.trans hclosed
  | stayed _ hstep =>
    cases hstep with
    | stayed hopen => cases hopen.symm.trans hclosed
  | halted hhalting => exact absurd hhalting hnotHalting
  | failed hfailing => exact absurd hfailing (hnotFailing _)
  | computed hrunning => exact absurd hrunning hnotRunning
  | foundEmpty hrunning => exact absurd hrunning hnotRunning
  | parked hrunning => exact absurd hrunning hnotRunning
  | turnedAway hrunning => exact absurd hrunning hnotRunning
  | emitted hrunning => exact absurd hrunning hnotRunning
  | passed hrunning => exact absurd hrunning hnotRunning
  | barred hrunning => exact absurd hrunning hnotRunning

/-- Nobody finds anything to do any more once a mesh has been dismissed. -/
theorem Sound.dismissed_move (h : m.Sound) (hdismissed : m.Dismissed) (mover : Mover) :
    (m.move mover).1.Dismissed := by
  have hclosed := hdismissed.closed
  refine ⟨(h.steps_move mover).shutdown_mono hclosed, ?_, fun k next hnext => ?_⟩
  · cases mover with
    | node k =>
      change (m.moveNode k).1.router.failure = none
      rcases h.moveNode_cases k with ⟨_, hmove⟩ | ⟨n, next, r, events, hn, hmoves, hmove⟩
      · rw [hmove]
        exact hdismissed.fine
      · rw [hmove, router_withNode, (hmoves.of_dismissed hclosed (hdismissed.phase k n hn)).2]
        exact hdismissed.fine
    | supervisor =>
      have hmoves := supervisorMoves_moveSupervisor m
      change m.moveSupervisor.1.router.failure = none
      generalize m.moveSupervisor = moved at hmoves
      cases hmoves with
      | ended => exact hdismissed.fine
      | waited => exact hdismissed.fine
      | finished => exact hdismissed.fine
      | injected => exact hdismissed.fine
  · rcases h.move_cases mover k with ⟨n, next', hn, hnext', hmoves⟩ | ⟨_, hothers⟩
    · cases hnext.symm.trans hnext'
      exact Or.inl (hmoves.of_dismissed hclosed (hdismissed.phase k n hn)).1
    · obtain ⟨n, hn, hsame⟩ := hothers next hnext
      have hphase := hdismissed.phase k n hn
      rcases hsame with rfl | rfl
      · exact hphase
      · rcases wake_phase n with hwake | ⟨woken, _, hwake⟩
        · rwa [hwake]
        · exact Or.inr ⟨true, hwake⟩

/-- The supervisor dismisses the mesh when it decides that it has come to its end without a
failure. -/
lemma Sound.dismissed_of_decides (h : m.Sound) {result : Except Error Outcome}
    (hwatch : ∀ result, m.supervisor.watch ≠ .ended result) (hdecides : m.Decides result)
    (hresult : EndsFine result)
    (hevents : (m.move .supervisor).2 = [.shutDown]) : (m.move .supervisor).1.Dismissed := by
  obtain ⟨hidle, hfine⟩ := hdecides.idle hresult
  have hatRest := h.atRest (h.shutdown_of_watch hwatch) hidle hfine
  have hmoves := supervisorMoves_moveSupervisor m
  change m.moveSupervisor.2 = _ at hevents
  change m.moveSupervisor.1.Dismissed
  generalize m.moveSupervisor = moved at hmoves hevents
  cases hmoves with
  | ended => cases hevents
  | waited => cases hevents
  | injected => cases hevents
  | finished =>
    refine ⟨rfl, hfine, fun k next hnext => ?_⟩
    change (m.nodes.map Node.wake)[k]? = some next at hnext
    rw [Array.getElem?_map, Option.map_eq_some_iff] at hnext
    obtain ⟨n, hn, rfl⟩ := hnext
    rcases wake_phase n with hwake | ⟨woken, _, hwake⟩
    · rw [hwake]
      rcases hatRest.phase k n hn with ⟨hgone, _⟩ | ⟨hwaiting, _⟩
      · exact Or.inl hgone
      · exact Or.inr hwaiting
    · exact Or.inr ⟨true, hwake⟩

/-! ## Runs -/

section Ends

variable (program : Program) (settings : Settings) {schedule : List Mover}

/-- A mesh that has come to its end without a failure has been dismissed. -/
lemma dismissed_of_ended {result : Except Error Outcome} (hresult : EndsFine result)
    (h : ((start program settings).after schedule).supervisor.watch = .ended result) :
    ((start program settings).after schedule).Dismissed := by
  obtain ⟨later, earlier, rfl, hends, hdecides⟩ := exists_decision (by simp [start]) h
  clear h
  induction later with
  | nil =>
    have hsound := sound_after program settings earlier
    exact hsound.dismissed_of_decides hends.running hdecides hresult hends.shutDown
  | cons mover later ih =>
    exact (sound_after program settings (later ++ .supervisor :: earlier)).dismissed_move ih mover

/-- The failures that have been reported to the router. -/
def Event.failures : Event → List (Nat × Fault)
  | .failed k cause => [(k, cause)]
  | _ => []

/-- The router remembers the failure that was reported first. -/
lemma Router.Steps.failure {settings : Settings} {natAddress : Word} {idlePolls : UInt32}
    {r : Router} {events : List Event}
    (h : Steps natAddress idlePolls (.start settings) events r) :
    r.failure = (along Event.failures events).head? := by
  induction h with
  | nil => rfl
  | @cons events _ r _ _ hstep ih =>
    cases hstep with
    | @failed k cause =>
      change r.failure.or (some (k, cause)) = (along _ events ++ [(k, cause)]).head?
      rw [ih, List.head?_append]
      rfl
    | _ => exact ih.trans (by simp only [along, Event.failures, List.append_nil])

/-- The failure that a run ends with is the first one of all that are reported. -/
lemma head?_failures_of_ended {node : Nat} {cause : Fault}
    (h : ((start program settings).after schedule).supervisor.watch =
      .ended (.error (.nodeFailed node cause))) :
    (along Event.failures ((start program settings).history schedule)).head? =
      some (node, cause) := by
  obtain ⟨later, earlier, rfl, _, hdecides⟩ := exists_decision (by simp [start]) h
  have hfailure : ((start program settings).after earlier).router.failure = some (node, cause) := by
    generalize (start program settings).after earlier = m at hdecides
    cases hdecides with
    | failed hfailure => exact hfailure
  -- What is reported after the decision comes behind what was reported before it.
  rw [(steps_after program settings earlier).failure] at hfailure
  have hsplit : later ++ .supervisor :: earlier = (later ++ [.supervisor]) ++ earlier := by simp
  rw [hsplit, history_append, along_append, List.head?_append, hfailure]
  rfl

/-- No failure of a node is masked, after every schedule.  If the run has come to an outcome or the
mesh was found to be stuck, then no machine has returned a fault in any move of the schedule,
whether before or after the end was decided on, but the one that says that it was turned away from
a mesh that is coming to its end; and no failure was reported.  If the run has ended with the
failure of a node, that is the failure that was reported first. -/
theorem failures_are_reported (schedule : List Mover) :
    let mesh := (start program settings).after
    let history := (start program settings).history
    (∀ result, EndsFine result → (mesh schedule).supervisor.watch = .ended result →
      (∀ later mover earlier fault, schedule = later ++ mover :: earlier →
        (mesh earlier).fault? mover = some fault →
          fault = .channelClosed ∧ (mesh earlier).router.shutdown = true) ∧
      along Event.failures (history schedule) = []) ∧
    ∀ node cause, (mesh schedule).supervisor.watch = .ended (.error (.nodeFailed node cause)) →
      (along Event.failures (history schedule)).head? = some (node, cause) := by
  intro mesh history
  refine ⟨fun result hresult hended => ?_, fun node cause hended => ?_⟩
  · have hdismissed := dismissed_of_ended program settings hresult hended
    refine ⟨fun later mover earlier fault hschedule hfault => ?_, ?_⟩
    · have hsound := sound_after program settings earlier
      rcases hsound.of_fault? hfault with hturnedAway | hhurt
      · exact hturnedAway
      · have hstill := isHurt_after program settings later (mover :: earlier) hhurt
        rw [← hschedule] at hstill
        exact absurd hstill hdismissed.not_isHurt
    · have hfailure := (steps_after program settings schedule).failure
      rw [hdismissed.fine] at hfailure
      exact List.head?_eq_none_iff.1 hfailure.symm
  · exact head?_failures_of_ended program settings hended

end Ends

/-- A program that asks for input twice. -/
def listener : Program := ⟨#[3, 10, 3, 10].map Word.ofCount⟩

/-- A program that begins with no instruction. -/
def stillborn : Program := ⟨#[0]⟩

/-- The only node of `listener` is turned away from a mesh that was found to be stuck.  Of the two
nodes of `stillborn` the second one faults first, but the first one reports first. -/
theorem failures_are_reported_listener :
    (((start listener { nodes := 1, idlePolls := 1 }).after
        [.supervisor, .node 0, .node 0]).fault? (.node 0) = some .channelClosed ∧
      ((start listener { nodes := 1, idlePolls := 1 }).after
        [.supervisor, .node 0, .node 0]).router.shutdown = true) ∧
    (along Event.failures ((start stillborn { nodes := 2 }).history
        [.supervisor, .node 1, .node 0, .node 0, .node 1])).head? =
      some (0, .decode 0 (.unknownOpcode 0)) := by
  have hstuck : ((start listener { nodes := 1, idlePolls := 1 }).after
      [.node 0, .supervisor, .node 0, .node 0]).supervisor.watch =
        .ended (.error .deadlock) := by
    with_unfolding_all rfl
  have hfault : ((start listener { nodes := 1, idlePolls := 1 }).after
      [.supervisor, .node 0, .node 0]).fault? (.node 0) = some .channelClosed := by
    decide +kernel
  have hfailed : ((start stillborn { nodes := 2 }).after
      [.supervisor, .node 1, .node 0, .node 0, .node 1]).supervisor.watch =
        .ended (.error (.nodeFailed 0 (.decode 0 (.unknownOpcode 0)))) := by
    with_unfolding_all rfl
  obtain ⟨hfine, _⟩ := failures_are_reported listener { nodes := 1, idlePolls := 1 }
    [.node 0, .supervisor, .node 0, .node 0]
  obtain ⟨hturnedAway, _⟩ := hfine _ (Or.inr rfl) hstuck
  obtain ⟨_, hshut⟩ := hturnedAway [] (.node 0) [.supervisor, .node 0, .node 0] _ rfl hfault
  exact ⟨⟨hfault, hshut⟩, (failures_are_reported stillborn { nodes := 2 } _).2 _ _ hfailed⟩

end Intcode.Mesh
