import Intcode.Mesh.Run
import Intcode.Proofs.Mesh.Histories
import Intcode.Proofs.Mesh.Idleness

/-!
# How runs end

The supervisor delivers the packet that was last sent to the NAT each time the mesh is idle, and
ends the run when the mesh is idle after it has delivered the same second value twice in a row.  A
run that has ended came to its end in one of its moves (`EndsNext`, `exists_decision`).  The
supervisor decided then on what is true of the events so far (`reports_of_decides`), and nothing is
sent or delivered afterwards (`Router.Steps.quiet`).
-/

namespace Intcode.Mesh

open Router

variable {m : Mesh} {result : Except Error Outcome}

/-! ## The decision -/

/-- The run goes on until the supervisor moves next, and comes to its end with that move. -/
structure EndsNext (m : Mesh) (result : Except Error Outcome) : Prop where
  /-- The run has not come to its end, with whatever result. -/
  running : ∀ other, m.supervisor.watch ≠ .ended other
  /-- It has this result after the move of the supervisor. -/
  ended : (m.move .supervisor).1.supervisor.watch = .ended result
  /-- All that happens in that move is that the mesh is shut down. -/
  shutDown : (m.move .supervisor).2 = [.shutDown]

lemma watch_of_wake {s : Supervisor} (h : s.wake.watch = .ended result) :
    s.watch = .ended result := by
  unfold Supervisor.wake at h
  split at h
  · cases h
  · exact h

/-- A run comes to its end only because the supervisor decides so. -/
lemma ended_move {mover : Mover} (h : (m.move mover).1.supervisor.watch = .ended result) :
    m.supervisor.watch = .ended result ∨
      mover = .supervisor ∧ m.EndsNext result ∧ m.Decides result := by
  cases mover with
  | node k =>
    change (m.moveNode k).1.supervisor.watch = _ at h
    left
    cases hn : m.nodes[k]? with
    | none =>
      rw [moveNode_of_getElem?_eq_none hn] at h
      exact h
    | some n =>
      rcases hmove : n.move (port m.natAddress m.idlePolls k) k (m.router, []) with
        ⟨next, r, events⟩
      rw [moveNode_of_move hn hmove, supervisor_withNode] at h
      cases hwakes : events.any Event.wakes with
      | true => exact watch_of_wake (by rwa [if_pos hwakes] at h)
      | false => rwa [if_neg (by simp [hwakes])] at h
  | supervisor =>
    have hended := h
    change m.moveSupervisor.1.supervisor.watch = _ at h
    have hmoves := supervisorMoves_moveSupervisor m
    have hevents : (m.move .supervisor).2 = m.moveSupervisor.2 := rfl
    generalize m.moveSupervisor = moved at hmoves h hevents
    -- Of what the supervisor can do, only a decision makes the run come to its end.
    cases hmoves with
    | ended => exact Or.inl h
    | waited => cases h
    | finished hwatch hdecides =>
      cases h
      exact Or.inr ⟨rfl, ⟨hwatch, hended, hevents⟩, hdecides⟩
    | injected => cases h

/-- Only the supervisor delivers a packet of the NAT, while the mesh is idle. -/
lemma Sound.of_injected (h : m.Sound) {mover : Mover} {packet : Packet}
    (hmem : .injected packet ∈ (m.move mover).2) :
    (∀ result, m.supervisor.watch ≠ .ended result) ∧ m.router.failure = none ∧
      m.router.isIdle = true ∧ m.router.nat = some packet := by
  cases mover with
  | node k => cases h.actor?_moveNode hmem
  | supervisor =>
    change _ ∈ m.moveSupervisor.2 at hmem
    have hmoves := supervisorMoves_moveSupervisor m
    generalize m.moveSupervisor = moved at hmoves hmem
    cases hmoves with
    | ended => cases hmem
    | waited => cases hmem
    | finished => cases List.mem_singleton.1 hmem
    | injected hwatch hfine hidle _ hnat =>
      cases List.mem_singleton.1 hmem
      exact ⟨hwatch, hfine, hidle, hnat⟩

/-- A run that has come to its end was decided on in one move of the supervisor. -/
lemma exists_decision {schedule : List Mover}
    (hstart : ∀ result, m.supervisor.watch ≠ .ended result)
    (h : (m.after schedule).supervisor.watch = .ended result) :
    ∃ later earlier, schedule = later ++ .supervisor :: earlier ∧
      (m.after earlier).EndsNext result ∧ (m.after earlier).Decides result := by
  induction schedule with
  | nil => exact absurd h (hstart result)
  | cons mover rest ih =>
    rcases ended_move h with hended | ⟨rfl, hends, hdecides⟩
    · obtain ⟨later, earlier, rfl, hdecision⟩ := ih hended
      exact ⟨mover :: later, earlier, rfl, hdecision⟩
    · exact ⟨[], rest, rfl, hends, hdecides⟩

/-! ## After the decision -/

section Quiet

variable {natAddress : Word} {idlePolls : UInt32} {settings : Settings} {r r' : Router}
  {events : List Event} {event : Event}

/-- Nothing is sent or delivered in a mesh that is coming to its end. -/
lemma Router.Step.quiet (h : Step natAddress idlePolls r event r') (hclosed : r.shutdown = true) :
    event.injections = [] ∧ event.retentions = [] ∧ event.routings = [] := by
  cases h with
  | routed hopen => cases hopen.symm.trans hclosed
  | retained hopen => cases hopen.symm.trans hclosed
  | injected hopen => cases hopen.symm.trans hclosed
  | _ => exact ⟨rfl, rfl, rfl⟩

lemma Router.Steps.quiet (h : Steps natAddress idlePolls r events r')
    (hclosed : r.shutdown = true) : along Event.injections events = [] ∧
      along Event.retentions events = [] ∧ along Event.routings events = [] := by
  induction h with
  | nil => exact ⟨rfl, rfl, rfl⟩
  | cons h hstep ih =>
    obtain ⟨hinjections, hretentions, hroutings⟩ := ih
    obtain ⟨hinjection, hretention, hrouting⟩ := hstep.quiet (h.shutdown_mono hclosed)
    simp only [along, hinjections, hretentions, hroutings, hinjection, hretention, hrouting]
    exact ⟨rfl, rfl, rfl⟩

/-- All that the NAT delivers, retains and counts has happened before the mesh was shut down. -/
lemma Router.Steps.along_of_shutDown {later earlier : List Event}
    (h : Steps natAddress idlePolls r (later ++ .shutDown :: earlier) r') :
    along Event.injections (later ++ .shutDown :: earlier) = along Event.injections earlier ∧
      along Event.retentions (later ++ .shutDown :: earlier) = along Event.retentions earlier ∧
      along Event.routings (later ++ .shutDown :: earlier) = along Event.routings earlier := by
  obtain ⟨r₁, r₂, _, hstep, hlater⟩ := h.exists_step
  have hclosed : r₂.shutdown = true := by
    cases hstep
    rfl
  obtain ⟨hinjections, hretentions, hroutings⟩ := hlater.quiet hclosed
  simp only [along_append, along, hinjections, hretentions, hroutings, List.append_nil,
    Event.injections, Event.retentions, Event.routings, and_self]

/-- The NAT has a packet before it delivers one. -/
lemma Router.Steps.retentions_ne_nil (h : Steps natAddress idlePolls (.start settings) events r)
    (hinjections : along Event.injections events ≠ []) :
    along Event.retentions events ≠ [] := by
  induction h with
  | nil => exact absurd rfl hinjections
  | @cons events event r _ h hstep ih =>
    cases hstep with
    | injected _ _ _ hnat =>
      intro hnone
      have hlast := hnat.symm.trans h.nat
      have hnothing : along Event.retentions events = [] :=
        (List.append_nil _).symm.trans hnone
      rw [hnothing] at hlast
      cases hlast
    | retained => exact List.append_ne_nil_of_right_ne_nil _ (by simp [Event.retentions])
    | _ =>
      have hbefore := ih <| by
        simpa only [along, Event.injections, List.append_nil] using hinjections
      simpa only [along, Event.retentions, List.append_nil] using hbefore

end Quiet

/-! ## Who acts in a mesh -/

lemma size_nodes_after (program : Program) (settings : Settings) (schedule : List Mover) :
    ((start program settings).after schedule).nodes.size = settings.nodes.toNat := by
  rw [← (sound_after program settings schedule).size,
    (steps_after program settings schedule).size, size_start]

/-- Whoever does something is a node that there is. -/
lemma lt_of_actor? (program : Program) (settings : Settings) (schedule : List Mover)
    {event : Event} {k : Nat} (hmem : event ∈ (start program settings).history schedule)
    (hactor : event.actor? = some k) : k < settings.nodes.toNat := by
  induction schedule with
  | nil => cases hmem
  | cons mover earlier ih =>
    rcases List.mem_append.1 hmem with hnow | hbefore
    · have hsound := sound_after program settings earlier
      rw [← size_nodes_after program settings earlier]
      generalize (start program settings).after earlier = m at hsound hnow
      obtain rfl := hsound.eq_of_actor? hnow hactor
      change event ∈ (m.moveNode k).2 at hnow
      rcases hsound.moveNode_cases k with ⟨_, hmove⟩ | ⟨n, _, _, _, hn, _, _⟩
      · rw [hmove] at hnow
        cases hnow
      · exact (Array.getElem?_eq_some_iff.1 hn).1
    · exact ih hbefore

/-- Somebody has sent a packet to the NAT only if there is a node. -/
lemma nodes_pos_of_nat (program : Program) (settings : Settings) (schedule : List Mover)
    {packet : Packet}
    (h : ((start program settings).after schedule).router.nat = some packet) :
    0 < settings.nodes.toNat := by
  rw [(steps_after program settings schedule).nat] at h
  obtain ⟨event, hmem, hpacket⟩ := exists_of_mem_along _ (List.mem_of_getLast? h)
  cases event with
  | retained sender =>
    exact Nat.zero_lt_of_lt (lt_of_actor? program settings schedule hmem rfl)
  | _ => cases hpacket

/-! ## Runs are schedules -/

lemma exists_schedule_of_runFrom {count k : Nat} (h : m.runFrom count k = some result) :
    ∃ schedule, (m.after schedule).supervisor.watch = .ended result := by
  induction count generalizing k m with
  | zero => cases h
  | succ count ih =>
    have hmove (mover : Mover) {k : Nat} (h : (m.move mover).1.runFrom count k = some result) :
        ∃ schedule, (m.after schedule).supervisor.watch = .ended result := by
      obtain ⟨schedule, hended⟩ := ih h
      refine ⟨schedule ++ [mover], ?_⟩
      rw [after_append]
      exact hended
    unfold runFrom at h
    split at h
    · next heq =>
      cases h
      exact ⟨[], heq⟩
    · split at h
      · exact hmove _ h
      · split at h
        · exact hmove _ h
        · split at h
          · exact hmove _ h
          · cases h

/-- What a mesh comes to is what it comes to in one order of moves. -/
theorem exists_schedule_of_run {program : Program} {settings : Settings}
    (hsettings : settings.check = .ok ()) (h : run program settings = some result) :
    ∃ schedule, ((start program settings).after schedule).supervisor.watch = .ended result := by
  unfold run at h
  rw [hsettings] at h
  exact exists_schedule_of_runFrom h

/-! ## What the end of a run says -/

/-- Nothing is waiting for any node, every node is parked or has halted, and all that a node can do
is to wait again. -/
def IsQuiet (m : Mesh) : Prop := m.router.isIdle = true ∧ m.AtRest

/-- What an outcome says about the events of a run. -/
structure Outcome.Reports (outcome : Outcome) (events : List Event) : Prop where
  /-- The NAT has delivered so many packets, and at least two. -/
  injections : outcome.injections = (along Event.injections events).length ∧ 2 ≤ outcome.injections
  /-- The last two of them had the same second value, and no two before them. -/
  repeatedY : EndsInRepeat ((along Event.injections events).map Packet.y) outcome.repeatedY
  /-- The packet that was first sent to the NAT had this second value. -/
  firstNatY : (along Event.retentions events).head?.map Packet.y = some outcome.firstNatY
  /-- So many packets were put into mailboxes by nodes. -/
  packetsRouted : outcome.packetsRouted = (along Event.routings events).length

section Ends

variable (program : Program) (settings : Settings) {schedule later earlier : List Mover}

/-- What the supervisor decides in a mesh that it finds idle is true of what has happened. -/
lemma reports_of_decides {outcome : Outcome}
    (h : ((start program settings).after schedule).Decides (.ok outcome)) :
    outcome.Reports ((start program settings).history schedule) := by
  have hrecalls := recalls_after program settings schedule
  have hsteps := steps_after program settings schedule
  generalize (start program settings).history schedule = events at hrecalls hsteps ⊢
  cases h with
  | @repeated y hfine hidle hrepeated =>
    have hrepeat := hrecalls.repeated y hrepeated
    have hinjections := hrecalls.injections
    rw [List.length_map] at hinjections
    have htwo : 2 ≤ (along Event.injections events).length := by
      obtain ⟨before, heq, _⟩ := hrepeat
      rw [← List.length_map Packet.y, heq, List.length_append]
      exact Nat.le_add_left 2 _
    have hnat := hsteps.retentions_ne_nil (List.ne_nil_of_length_pos (by omega))
    refine ⟨⟨hinjections, hinjections ▸ htwo⟩, hrepeat, ?_, hsteps.routed⟩
    change _ = some (Option.getD _ y)
    rw [hsteps.firstNatY]
    cases hretained : along Event.retentions events with
    | nil => exact absurd hretained hnat
    | cons packet rest => rfl

/-- After the supervisor has decided, the NAT delivers, retains and counts nothing any more. -/
lemma along_of_decision
    (hevents : (((start program settings).after earlier).move .supervisor).2 = [.shutDown]) :
    along Event.injections ((start program settings).history (later ++ .supervisor :: earlier)) =
        along Event.injections ((start program settings).history earlier) ∧
      along Event.retentions ((start program settings).history (later ++ .supervisor :: earlier)) =
        along Event.retentions ((start program settings).history earlier) ∧
      along Event.routings ((start program settings).history (later ++ .supervisor :: earlier)) =
        along Event.routings ((start program settings).history earlier) := by
  have hsteps := steps_after program settings (later ++ .supervisor :: earlier)
  have hdecision : (start program settings).history (.supervisor :: earlier) =
      .shutDown :: (start program settings).history earlier :=
    congrArg (· ++ (start program settings).history earlier) hevents
  rw [history_append, hdecision] at hsteps ⊢
  exact hsteps.along_of_shutDown

/-- The supervisor acts on an idle mesh without a failure only while it is quiet. -/
lemma isQuiet_of_idle
    (hwatch : ∀ result, ((start program settings).after schedule).supervisor.watch ≠ .ended result)
    (hidle : ((start program settings).after schedule).router.isIdle = true)
    (hfine : ((start program settings).after schedule).router.failure = none) :
    ((start program settings).after schedule).IsQuiet := by
  have hsound := sound_after program settings schedule
  exact ⟨hidle, hsound.atRest (hsound.shutdown_of_watch hwatch) hidle hfine⟩

/-- An outcome is true of the whole run, and the mesh was quiet when it was decided on. -/
lemma reports_of_ended {outcome : Outcome}
    (h : ((start program settings).after schedule).supervisor.watch = .ended (.ok outcome)) :
    outcome.Reports ((start program settings).history schedule) ∧
      ∃ later earlier, schedule = later ++ .supervisor :: earlier ∧
        ((start program settings).after earlier).EndsNext (.ok outcome) ∧
        ((start program settings).after earlier).IsQuiet := by
  obtain ⟨later, earlier, rfl, hends, hdecides⟩ := exists_decision (by simp [start]) h
  -- The outcome is true of what was there to decide on, and that is all that counts of the run.
  obtain ⟨hinjections, hretentions, hroutings⟩ := along_of_decision program settings hends.shutDown
  have hreports := reports_of_decides program settings hdecides
  refine ⟨⟨?_, ?_, ?_, ?_⟩, later, earlier, rfl, hends, ?_⟩
  · rw [hinjections]
    exact hreports.injections
  · rw [hinjections]
    exact hreports.repeatedY
  · rw [hretentions]
    exact hreports.firstNatY
  · rw [hroutings]
    exact hreports.packetsRouted
  · cases hdecides with
    | repeated hfine hidle => exact isQuiet_of_idle program settings hends.running hidle hfine

/-- If the mesh was found to be stuck, there was nothing that the NAT could do about it. -/
lemma stuck_of_ended
    (h : ((start program settings).after schedule).supervisor.watch = .ended (.error .deadlock)) :
    ((along Event.injections ((start program settings).history schedule)).map
        Packet.y).IsChain (· ≠ ·) ∧
      ∃ later earlier, schedule = later ++ .supervisor :: earlier ∧
        ((start program settings).after earlier).EndsNext (.error .deadlock) ∧
        ((start program settings).after earlier).IsQuiet ∧
        (along Event.retentions ((start program settings).history schedule) = [] ∨
          ∃ values, .halted 0 values ∈ (start program settings).history earlier) := by
  obtain ⟨later, earlier, rfl, hends, hdecides⟩ := exists_decision (by simp [start]) h
  obtain ⟨hinjections, hretentions, _⟩ := along_of_decision program settings hends.shutDown
  have hrecalls := recalls_after program settings earlier
  have hsteps := steps_after program settings earlier
  rw [hinjections, hretentions]
  cases hdecides with
  | silent hfine hidle hrepeated hnat =>
    have hquiet := isQuiet_of_idle program settings hends.running hidle hfine
    refine ⟨hrecalls.unrepeated hrepeated, later, earlier, rfl, hends, hquiet, Or.inl ?_⟩
    exact List.getLast?_eq_none_iff.1 (hsteps.nat.symm.trans hnat)
  | headless hfine hidle hrepeated hnat hhalted =>
    have hquiet := isQuiet_of_idle program settings hends.running hidle hfine
    refine ⟨hrecalls.unrepeated hrepeated, later, earlier, rfl, hends, hquiet, Or.inr ?_⟩
    exact hsteps.exists_halted (nodes_pos_of_nat program settings earlier hnat) hhalted

/-- The NAT delivers the packet that was last sent to it, while the mesh is quiet. -/
lemma getLast?_of_injected {mover : Mover} {packet : Packet}
    (h : .injected packet ∈ (((start program settings).after schedule).move mover).2) :
    ((start program settings).after schedule).IsQuiet ∧
      (along Event.retentions ((start program settings).history schedule)).getLast? =
        some packet := by
  obtain ⟨hwatch, hfine, hidle, hnat⟩ := (sound_after program settings schedule).of_injected h
  exact ⟨isQuiet_of_idle program settings hwatch hidle hfine,
    (steps_after program settings schedule).nat.symm.trans hnat⟩

/-- The run ends as the protocol of the NAT says, after every schedule.  An outcome reports what has
happened, and the mesh was quiet right before the move with which the run came to its end.  If the
mesh was found to be stuck, it was quiet right before that move, no second value had been delivered
twice in a row, and no packet had ever been sent to the NAT or the first node had halted.  Every
packet that the NAT has delivered was the one last sent to it, and was delivered while the mesh was
quiet. -/
theorem ends_as_specified (schedule : List Mover) :
    let mesh := (start program settings).after
    let history := (start program settings).history
    (∀ outcome, (mesh schedule).supervisor.watch = .ended (.ok outcome) →
      outcome.Reports (history schedule) ∧
      ∃ later earlier, schedule = later ++ .supervisor :: earlier ∧
        (mesh earlier).EndsNext (.ok outcome) ∧ (mesh earlier).IsQuiet) ∧
    ((mesh schedule).supervisor.watch = .ended (.error .deadlock) →
      ((along Event.injections (history schedule)).map Packet.y).IsChain (· ≠ ·) ∧
      ∃ later earlier, schedule = later ++ .supervisor :: earlier ∧
        (mesh earlier).EndsNext (.error .deadlock) ∧ (mesh earlier).IsQuiet ∧
        (along Event.retentions (history schedule) = [] ∨
          ∃ values, .halted 0 values ∈ history earlier)) ∧
    ∀ later mover earlier packet, schedule = later ++ mover :: earlier →
      .injected packet ∈ ((mesh earlier).move mover).2 →
        (mesh earlier).IsQuiet ∧
        (along Event.retentions (history earlier)).getLast? = some packet := by
  refine ⟨fun outcome hended => ?_, fun hended => ?_, fun later mover earlier packet _ hmem => ?_⟩
  · exact reports_of_ended program settings hended
  · exact stuck_of_ended program settings hended
  · exact getLast?_of_injected program settings hmem

end Ends

/-- A program that sends a packet to the NAT and then asks for input six times. -/
def announcer : Program :=
  ⟨#[104, 255, 104, 0, 104, 0, 3, 0, 3, 0, 3, 0, 3, 0, 3, 0, 3, 0].map Word.ofCount⟩

/-- The NAT delivers the packet of `announcer` twice, and the run ends with that in a move before
which the mesh is quiet. -/
theorem ends_as_specified_announcer :
    let mesh := start announcer { nodes := 1, idlePolls := 1 }
    ∃ schedule, (mesh.after schedule).supervisor.watch = .ended (.ok ⟨0, 0, 2, 0⟩) ∧
      Outcome.Reports ⟨0, 0, 2, 0⟩ (mesh.history schedule) ∧
      ∃ later earlier, schedule = later ++ .supervisor :: earlier ∧
        (mesh.after earlier).EndsNext (.ok ⟨0, 0, 2, 0⟩) ∧ (mesh.after earlier).IsQuiet := by
  have hrun : run announcer { nodes := 1, idlePolls := 1 } = some (.ok ⟨0, 0, 2, 0⟩) := by
    decide +kernel
  obtain ⟨schedule, hended⟩ := exists_schedule_of_run rfl hrun
  obtain ⟨houtcome, _⟩ := ends_as_specified announcer { nodes := 1, idlePolls := 1 } schedule
  exact ⟨schedule, hended, houtcome _ hended⟩

end Intcode.Mesh
