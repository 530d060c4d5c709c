import Intcode.Proofs.Mesh.Histories

/-!
# Packets that nodes make up

Three values that a node emits one after the other make up a packet (`packets`).  Until the mesh
comes to its end, the packets that the router has dealt with for a node are exactly those, in the
order in which the node completed them (`Composes.sent_eq`).  A packet that is completed later is
not dealt with, and it is the last one of its node.
-/

namespace Intcode.Mesh

open Router

/-- The packets that emitted values make up. -/
def packets : List Word → List Packet
  | destination :: x :: y :: rest => ⟨destination, x, y⟩ :: packets rest
  | _ => []

lemma packets_eq_nil {values : List Word} (h : values.length < 3) : packets values = [] := by
  match values with
  | [] => rfl
  | [_] => rfl
  | [_, _] => rfl
  | _ :: _ :: _ :: _ =>
    simp only [List.length_cons] at h
    omega

lemma packets_words_append (ps : List Packet) (rest : List Word) :
    packets (ps.flatMap Packet.words ++ rest) = ps ++ packets rest := by
  induction ps with
  | nil => rfl
  | cons p ps ih => exact congrArg (p :: ·) ih

/-! ## What a node emits in one move -/

/-- What a node emits in one move, and the packet that the router deals with then. -/
inductive Emits (k : Nat) (n : Node) (r : Router) (next : Node) (events : List Event) : Prop
  | nothing (hpending : next.pending = n.pending)
    (hemissions : along (Event.emissions k) events = [])
    (hsent : along (Event.sent k) events = []) (hgone : n.phase = .gone → next.phase = .gone)
  | value {value : Word} (hlive : n.phase ≠ .gone) (hlength : n.pending.length ≠ 2)
    (hpending : next.pending = n.pending ++ [value])
    (hemissions : along (Event.emissions k) events = [value])
    (hsent : along (Event.sent k) events = [])
  | packet {p : Packet} (hlive : n.phase ≠ .gone)
    (hbefore : n.pending = [p.destination, p.x]) (hpending : next.pending = [])
    (hemissions : along (Event.emissions k) events = [p.y])
    (hsent : along (Event.sent k) events = [p])
  | barred {p : Packet} (hlive : n.phase ≠ .gone)
    (hbefore : n.pending = [p.destination, p.x]) (hclosed : r.shutdown = true)
    (hgone : next.phase = .gone) (hemissions : along (Event.emissions k) events = [p.y])
    (hsent : along (Event.sent k) events = [])

variable {natAddress : Word} {idlePolls : UInt32} {k s : Nat} {n next : Node} {r r' : Router}
  {events : List Event} {m : Mesh}

lemma Moves.emits (h : Moves natAddress idlePolls k n r next r' events) :
    Emits k n r next events := by
  have hemitted (value : Word) : (Event.emitted k value).emissions k = [value] := if_pos rfl
  have hlive {phase : Phase} (hphase : n.phase = phase) (hne : phase ≠ .gone) : n.phase ≠ .gone :=
    hphase ▸ hne
  cases h with
  | gone hphase => exact .nothing rfl rfl rfl id
  | halted => exact .nothing rfl rfl rfl fun _ => rfl
  | failed => exact .nothing rfl rfl rfl fun _ => rfl
  | computed hphase => exact .nothing rfl rfl rfl fun hgone => by cases hphase.symm.trans hgone
  | took hphase =>
    refine .nothing rfl rfl rfl fun hgone => ?_
    rcases hphase with hphase | ⟨woken, hphase⟩
    · cases hphase.symm.trans hgone
    · cases hphase.symm.trans hgone
  | foundEmpty hphase => exact .nothing rfl rfl rfl fun hgone => by cases hphase.symm.trans hgone
  | parked hphase => exact .nothing rfl rfl rfl fun hgone => by cases hphase.symm.trans hgone
  | stayed hphase => exact .nothing rfl rfl rfl fun hgone => by cases hphase.symm.trans hgone
  | turnedAway => exact .nothing rfl rfl rfl fun _ => rfl
  | released => exact .nothing rfl rfl rfl fun _ => rfl
  | emitted hphase hpending =>
    exact .value (hlive hphase (by simp)) hpending rfl (hemitted _) rfl
  | @passed destination x y _ _ _ hphase hpending hhands =>
    refine .packet (p := ⟨destination, x, y⟩) (hlive hphase (by simp)) hpending rfl ?_ ?_
    · cases hhands <;> exact congrArg (· ++ []) (hemitted _)
    · cases hhands <;> exact if_pos rfl
  | @barred destination x y _ hphase hpending hclosed =>
    refine .barred (p := ⟨destination, x, y⟩) (hlive hphase (by simp)) hpending hclosed rfl ?_ rfl
    exact congrArg (· ++ []) (hemitted _)

/-! ## What a node emits in a run -/

/-- The values that a node has emitted are those of the packets that the router has dealt with, and
then those that do not make up a packet yet, unless the mesh was coming to its end when the node
completed its last packet. -/
inductive Composes (s : Nat) (events : List Event) (m : Mesh) : Prop
  | pending {rest : List Word} (hlength : rest.length < 3)
    (hemissions : along (Event.emissions s) events =
      (along (Event.sent s) events).flatMap Packet.words ++ rest)
    (hnode : ∀ n, m.nodes[s]? = some n → n.pending = rest)
  | barred {p : Packet} (hclosed : m.router.shutdown = true)
    (hemissions : along (Event.emissions s) events =
      (along (Event.sent s) events).flatMap Packet.words ++ p.words)
    (hnode : ∀ n, m.nodes[s]? = some n → n.phase = .gone)

/-- The router has dealt with a part of the packets of a node. -/
lemma Composes.sent_isPrefix (h : Composes s events m) :
    along (Event.sent s) events <+: packets (along (Event.emissions s) events) := by
  cases h with
  | pending _ hemissions =>
    rw [hemissions, packets_words_append]
    exact List.prefix_append _ _
  | barred _ hemissions =>
    rw [hemissions, packets_words_append]
    exact List.prefix_append _ _

/-- The router has dealt with all packets of a node, unless the mesh is coming to its end. -/
lemma Composes.sent_eq (h : Composes s events m) (hopen : m.router.shutdown = false) :
    along (Event.sent s) events = packets (along (Event.emissions s) events) := by
  cases h with
  | pending hlength hemissions =>
    rw [hemissions, packets_words_append, packets_eq_nil hlength, List.append_nil]
  | barred hclosed => cases hopen.symm.trans hclosed

/-- Others do nothing about the packets of a node. -/
lemma Composes.others {m' : Mesh} {more : List Event} (h : Composes s events m)
    (hmore : ∀ event ∈ more, event.actor? ≠ some s)
    (hnode : ∀ n', m'.nodes[s]? = some n' → ∃ n, m.nodes[s]? = some n ∧ n'.pending = n.pending ∧
      (n.phase = .gone → n'.phase = .gone))
    (hclosed : m.router.shutdown = true → m'.router.shutdown = true) :
    Composes s (more ++ events) m' := by
  have hemissions :
      along (Event.emissions s) (more ++ events) = along (Event.emissions s) events := by
    rw [along_append, along_eq_nil _ fun event hmem => Event.emissions_of_actor? (hmore event hmem),
      List.append_nil]
  have hsent : along (Event.sent s) (more ++ events) = along (Event.sent s) events := by
    rw [along_append, along_eq_nil _ fun event hmem => Event.sent_of_actor? (hmore event hmem),
      List.append_nil]
  cases h with
  | pending hlength heq hpending =>
    refine .pending hlength (by rw [hemissions, hsent, heq]) fun n' hn' => ?_
    obtain ⟨n, hn, hsame, _⟩ := hnode n' hn'
    exact hsame.trans (hpending n hn)
  | barred hshut heq hgone =>
    refine .barred (hclosed hshut) (by rw [hemissions, hsent, heq]) fun n' hn' => ?_
    obtain ⟨n, hn, _, hstays⟩ := hnode n' hn'
    exact hstays (hgone n hn)

/-- A node adds to its packets what it emits. -/
lemma Composes.emits {m' : Mesh} {more : List Event} (h : Composes s events m)
    (hn : m.nodes[s]? = some n) (hemits : Emits s n m.router next more)
    (hnext : m'.nodes[s]? = some next)
    (hclosed : m.router.shutdown = true → m'.router.shutdown = true) :
    Composes s (more ++ events) m' := by
  have honly (n' : Node) (hn' : m'.nodes[s]? = some n') : n' = next :=
    Option.some.inj (hn'.symm.trans hnext)
  have hemissions := along_append (Event.emissions s) more events
  have hsent := along_append (Event.sent s) more events
  cases h with
  | @pending rest hlength heq hpending =>
    obtain rfl := hpending n hn
    cases hemits with
    | nothing hsame hnone hnosent =>
      rw [hnone, List.append_nil] at hemissions
      rw [hnosent, List.append_nil] at hsent
      refine .pending hlength (by rw [hemissions, hsent, heq]) fun n' hn' => ?_
      rw [honly n' hn', hsame]
    | @value value _ hne hpending' hvalue hnosent =>
      rw [hvalue, heq, List.append_assoc] at hemissions
      rw [hnosent, List.append_nil] at hsent
      refine .pending ?_ (by rw [hemissions, hsent]) fun n' hn' => ?_
      · rw [List.length_append, List.length_singleton]
        omega
      · rw [honly n' hn', hpending']
    | @packet p _ hbefore hafter hvalue hpacket =>
      rw [hvalue, heq, hbefore] at hemissions
      rw [hpacket] at hsent
      refine .pending (by simp) ?_ fun n' hn' => (honly n' hn' ▸ hafter)
      rw [hemissions, hsent]
      simp [Packet.words]
    | @barred p _ hbefore hshut hgone hvalue hnosent =>
      rw [hvalue, heq, hbefore] at hemissions
      rw [hnosent, List.append_nil] at hsent
      refine .barred (p := p) (hclosed hshut) ?_ fun n' hn' => (honly n' hn' ▸ hgone)
      rw [hemissions, hsent]
      simp [Packet.words]
  | barred hshut heq hgone =>
    -- The node is gone: it emits nothing any more.
    have hphase := hgone n hn
    cases hemits with
    | nothing _ hnone hnosent hstays =>
      rw [hnone, List.append_nil] at hemissions
      rw [hnosent, List.append_nil] at hsent
      refine .barred (hclosed hshut) (by rw [hemissions, hsent, heq]) fun n' hn' => ?_
      rw [honly n' hn']
      exact hstays hphase
    | value hlive => exact absurd hphase hlive
    | packet hlive => exact absurd hphase hlive
    | barred hlive => exact absurd hphase hlive

/-- The nodes of a sound mesh go on making up packets in every move. -/
lemma Sound.composes_move (h : m.Sound) (hcomposes : Composes s events m) (mover : Mover) :
    Composes s ((m.move mover).2 ++ events) (m.move mover).1 := by
  have hclosed := (h.steps_move mover).shutdown_mono
  rcases h.move_cases mover s with ⟨n, next, hn, hnext, hmoves⟩ | ⟨hothers, hnodes⟩
  · exact hcomposes.emits hn hmoves.emits hnext hclosed
  · refine hcomposes.others hothers (fun n' hn' => ?_) hclosed
    obtain ⟨n, hn, rfl | rfl⟩ := hnodes n' hn'
    · exact ⟨n', hn, rfl, id⟩
    · refine ⟨n, hn, wake_pending n, fun hgone => ?_⟩
      rcases wake_phase n with hsame | ⟨_, hwaiting, _⟩
      · exact hsame.trans hgone
      · cases hwaiting.symm.trans hgone

/-- In the course of every schedule the nodes make up the packets that the router deals with. -/
theorem composes_after (program : Program) (settings : Settings) (schedule : List Mover)
    (s : Nat) : Composes s ((start program settings).history schedule)
      ((start program settings).after schedule) := by
  induction schedule with
  | nil =>
    have hlength : ([] : List Word).length < 3 := by simp
    refine .pending hlength rfl fun n hn => ?_
    change ((Array.range _).map _)[s]? = some n at hn
    rw [Array.getElem?_map, Option.map_eq_some_iff] at hn
    obtain ⟨_, _, rfl⟩ := hn
    rfl
  | cons mover earlier ih => exact (sound_after program settings earlier).composes_move ih mover

end Intcode.Mesh
