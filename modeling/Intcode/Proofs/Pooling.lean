import Intcode.Proofs.Requests

/-!
# Where input waits

Input may wait in the queue of a machine or in the buffer in front of it.  Since a machine uses up
its queue before it asks for more, the queue and the buffer behind it are one line of values, and it
makes no difference where in this line the queue ends (`runWith_queue`).  In particular a run on
some input is a run in front of a buffer that holds the input (`run_eq`).

Nor does it make a difference what else stands in the state of a port, as long as the port answers
alike (`runWith_map`); so outputs that a buffer has collected before only stand in front of what it
collects.  Taken together, a run and one with the input moved from the buffer to the queue cannot be
told apart but by where the input waits (`runWith_interchangeable`).
-/

namespace Intcode

/-- The turn with what is left in the buffer moved to the end of the machine's queue. -/
def Turn.pooled {α : Type} (turn : Turn α Buffer) : Turn α Buffer :=
  ⟨turn.answer, turn.machine.queue turn.port.inputs, ⟨[], turn.port.outputs⟩⟩

/-- The buffer with other outputs in front of those that it has collected. -/
def Buffer.prepend (earlier : Array Word) (b : Buffer) : Buffer := ⟨b.inputs, earlier ++ b.outputs⟩

namespace Port

variable {σ τ : Type}

/-- A map of the states of a port to those of another one under which the two answer alike. -/
structure Maps (port : Port σ) (port' : Port τ) (f : σ → τ) : Prop where
  /-- Input is given alike. -/
  receive : ∀ s, port'.receive (f s) = ((port.receive s).1, f (port.receive s).2)
  /-- Output is taken alike. -/
  send : ∀ value s, port'.send value (f s) = ((port.send value s).1, f (port.send value s).2)

/-- A buffer answers alike whatever it has collected. -/
lemma maps_prepend (earlier : Array Word) : buffered.Maps buffered (Buffer.prepend earlier) where
  receive b := by
    rcases b with ⟨_ | ⟨value, rest⟩, outputs⟩
    · rfl
    · rfl
  send value b := by
    unfold buffered Buffer.prepend
    rw [Array.append_push]

end Port

/-- The turn with a map applied to the state of the port. -/
def Turn.mapPort {α σ τ : Type} (f : σ → τ) (turn : Turn α σ) : Turn α τ :=
  ⟨turn.answer, turn.machine, f turn.port⟩

namespace Machine

variable {note : Option TraceEntry} {ip : UInt64} {target value : Word} {i : Instruction}
  {action : Action}

/-! ## The queue and the buffer -/

lemma storing_queue (m : Machine) (b : Buffer) :
    (m.queue b.inputs).storing note ip target value ⟨[], b.outputs⟩ =
      (m.storing note ip target value b).pooled := by
  have htape : (m.queue b.inputs).tape = m.tape := rfl
  unfold storing
  rw [htape]
  rcases m.tape.write target value with ⟨refusal | written, tape⟩
  · rfl
  · rfl

lemma perform_queue (m : Machine) (b : Buffer) :
    (m.queue b.inputs).perform Port.buffered i action ⟨[], b.outputs⟩ =
      (m.perform Port.buffered i action b).pooled := by
  cases action with
  | store target value => exact storing_queue m b
  | receive target =>
    unfold perform
    cases hinputs : m.inputs with
    | cons value rest =>
      have hqueue : (m.queue b.inputs).inputs = value :: (rest ++ b.inputs) := by
        unfold queue
        rw [hinputs]
        rfl
      simp only [hqueue]
      exact storing_queue { m with inputs := rest } b
    | nil =>
      -- The queue ends here, and the next value is the first one of the buffer.
      rcases b with ⟨_ | ⟨value, rest⟩, outputs⟩
      · simp only [inputs_queue_of_nil hinputs]
        rfl
      · simp only [inputs_queue_of_nil hinputs]
        have hrest : m.queue rest = { m with inputs := rest } := by
          unfold queue
          rw [hinputs, List.nil_append]
        refine Eq.trans ?_ (storing_queue m ⟨rest, outputs⟩)
        rw [hrest]
        rfl
  | emit value => rfl
  | jump destination => rfl
  | rebase base => rfl
  | halt => rfl

/-- An instruction does the same when the values in the buffer are queued beforehand. -/
lemma execute_queue (m : Machine) (b : Buffer) :
    (m.queue b.inputs).execute Port.buffered ⟨[], b.outputs⟩ =
      (m.execute Port.buffered b).pooled := by
  by_cases hready : m.IsReady
  · have hready' : (m.queue b.inputs).IsReady := ⟨hready.not_halted, hready.not_exhausted⟩
    have hrequest : (m.queue b.inputs).request = m.request := rfl
    rw [hready.execute_eq, hready'.execute_eq, hrequest]
    cases m.request with
    | error fault => rfl
    | ok request => exact perform_queue m.prepared b
  · have hready' : ¬ (m.queue b.inputs).IsReady := fun hqueued =>
      hready ⟨hqueued.not_halted, hqueued.not_exhausted⟩
    rw [execute_of_not_ready hready, execute_of_not_ready hready']
    rfl

/-- A run does the same when the values in the buffer are queued beforehand. -/
theorem runWith_queue (m : Machine) (b : Buffer) :
    (m.queue b.inputs).runWith Port.buffered ⟨[], b.outputs⟩ =
      (m.runWith Port.buffered b).pooled := by
  induction m, b using runWith_induction Port.buffered with
  | fault m b fault m' b' hturn hrun =>
    rw [hrun]
    exact runWith_of_fault ((execute_queue m b).trans (congrArg Turn.pooled hturn))
  | stop m b stop m' b' hturn hrun =>
    rw [hrun]
    exact runWith_of_stop ((execute_queue m b).trans (congrArg Turn.pooled hturn))
  | step m b status m' b' hturn hhalted hneeds hrun ih =>
    rw [hrun, ← ih]
    exact runWith_of_step ((execute_queue m b).trans (congrArg Turn.pooled hturn)) hhalted hneeds

/-- A run on some input is a run in front of a buffer that holds the input. -/
lemma run_eq (m : Machine) (inputs : List Word) :
    m.run inputs =
      ((m.runWith Port.buffered ⟨inputs, #[]⟩).answer.map fun stop =>
          ⟨(m.runWith Port.buffered ⟨inputs, #[]⟩).port.outputs.toList, stop⟩,
        (m.runWith Port.buffered ⟨inputs, #[]⟩).machine.queue
          (m.runWith Port.buffered ⟨inputs, #[]⟩).port.inputs) := by
  have hqueue := runWith_queue m ⟨inputs, #[]⟩
  exact congrArg (fun turn : Turn Stop Buffer => (turn.answer.map fun stop =>
    (⟨turn.port.outputs.toList, stop⟩ : Outcome), turn.machine)) hqueue

/-! ## Ports that answer alike -/

section Maps

variable {σ τ : Type} {port : Port σ} {port' : Port τ} {f : σ → τ}

lemma storing_map (f : σ → τ) (m : Machine) (s : σ) :
    m.storing note ip target value (f s) = (m.storing note ip target value s).mapPort f := by
  unfold storing
  rcases m.tape.write target value with ⟨refusal | written, tape⟩
  · rfl
  · rfl

lemma perform_map (h : port.Maps port' f) (m : Machine) (s : σ) :
    m.perform port' i action (f s) = (m.perform port i action s).mapPort f := by
  cases action with
  | store target value => exact storing_map f m s
  | receive target =>
    unfold perform
    cases m.inputs with
    | cons value rest => exact storing_map f { m with inputs := rest } s
    | nil =>
      simp only [h.receive]
      rcases port.receive s with ⟨fault | (_ | value), s'⟩
      · rfl
      · rfl
      · exact storing_map f m s'
  | emit value =>
    unfold perform
    simp only [h.send]
    rcases port.send value s with ⟨fault | sent, s'⟩
    · rfl
    · rfl
  | jump destination => rfl
  | rebase base => rfl
  | halt => rfl

/-- An instruction does the same in front of ports that answer alike. -/
lemma execute_map (h : port.Maps port' f) (m : Machine) (s : σ) :
    m.execute port' (f s) = (m.execute port s).mapPort f := by
  by_cases hready : m.IsReady
  · rw [hready.execute_eq, hready.execute_eq]
    cases m.request with
    | error fault => rfl
    | ok request => exact perform_map h m.prepared s
  · rw [execute_of_not_ready hready, execute_of_not_ready hready]
    rfl

/-- A run does the same in front of ports that answer alike. -/
theorem runWith_map (h : port.Maps port' f) (m : Machine) (s : σ) :
    m.runWith port' (f s) = (m.runWith port s).mapPort f := by
  induction m, s using runWith_induction port with
  | fault m s fault m' s' hturn hrun =>
    rw [hrun]
    exact runWith_of_fault ((execute_map h m s).trans (congrArg (Turn.mapPort f) hturn))
  | stop m s stop m' s' hturn hrun =>
    rw [hrun]
    exact runWith_of_stop ((execute_map h m s).trans (congrArg (Turn.mapPort f) hturn))
  | step m s status m' s' hturn hhalted hneeds hrun ih =>
    have hmapped := (execute_map h m s).trans (congrArg (Turn.mapPort f) hturn)
    rw [hrun, ← ih]
    exact runWith_of_step hmapped hhalted hneeds

end Maps

/-! ## Where the input waits makes no difference -/

/-- The machine apart from its queue. -/
def unqueued (m : Machine) : Machine := { m with inputs := [] }

/-- Two runs in front of buffers come to the same, apart from where the input waits that is left:
they emit the same values, which each buffer collects behind the outputs that it had. -/
structure Interchangeable (before before' emitted : Array Word) (run run' : Turn Stop Buffer) :
    Prop where
  /-- They stop in the same way or end in the same fault. -/
  answer : run'.answer = run.answer
  /-- The first buffer has collected what is emitted. -/
  outputs : run.port.outputs = before ++ emitted
  /-- So has the second buffer. -/
  outputs' : run'.port.outputs = before' ++ emitted
  /-- They leave the same machine apart from the queue. -/
  machine : run'.machine.unqueued = run.machine.unqueued
  /-- They leave the same input, in the queue and behind it in the buffer. -/
  inputs : run'.machine.inputs ++ run'.port.inputs = run.machine.inputs ++ run.port.inputs

/-- A run in front of a buffer with input comes to the same as one with the input queued in front of
a buffer without, whatever the two buffers have collected before.  A run on the input answers with
the values that these two emit, and leaves the same machine apart from the queue. -/
theorem runWith_interchangeable (m : Machine) (inputs : List Word) (before before' : Array Word) :
    ∃ emitted,
      Interchangeable before before' emitted (m.runWith Port.buffered ⟨inputs, before⟩)
          ((m.queue inputs).runWith Port.buffered ⟨[], before'⟩) ∧
        (m.run inputs).1 = (m.runWith Port.buffered ⟨inputs, before⟩).answer.map
            (fun stop => ⟨emitted.toList, stop⟩) ∧
          (m.run inputs).2.unqueued =
            (m.runWith Port.buffered ⟨inputs, before⟩).machine.unqueued := by
  -- Both runs are told from the one in front of a buffer that has collected nothing.
  have hbuffer := runWith_map (Port.maps_prepend before) m ⟨inputs, #[]⟩
  have hqueue := runWith_map (Port.maps_prepend before') (m.queue inputs) ⟨[], #[]⟩
  have hpooled := runWith_queue m ⟨inputs, #[]⟩
  have hbefore : Buffer.prepend before ⟨inputs, #[]⟩ = ⟨inputs, before⟩ := by
    rw [Buffer.prepend, Array.append_empty]
  have hbefore' : Buffer.prepend before' ⟨[], #[]⟩ = ⟨[], before'⟩ := by
    rw [Buffer.prepend, Array.append_empty]
  rw [hbefore] at hbuffer
  rw [hbefore', hpooled] at hqueue
  refine ⟨(m.runWith Port.buffered ⟨inputs, #[]⟩).port.outputs, ?_, ?_, ?_⟩
  · rw [hbuffer, hqueue]
    exact ⟨rfl, rfl, rfl, rfl, List.append_nil _⟩
  · rw [hbuffer, run_eq]
    rfl
  · rw [hbuffer, run_eq]
    rfl

end Machine

end Intcode
