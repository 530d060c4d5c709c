import Intcode.Proofs.InputArrival
import Intcode.Session

/-!
# Talking to a machine line by line

A dialogue starts a session and sends it command lines, as long as all goes well
(`Session.dialogue`).  What the machine prints arrives in one transcript for each exchange, and the
transcripts one after the other tell of a single run on all the lines (`Session.Tells`): splitting
what is emitted into text and other values goes along with putting pieces together
(`Ascii.decode_append`), and where a run is suspended makes no difference to what it comes to
(`Machine.run_append`).
-/

namespace Intcode

namespace Ascii

lemma decode_append (values more : List Word) :
    decode (values ++ more) =
      ((decode values).1 ++ (decode more).1, (decode values).2 ++ (decode more).2) := by
  unfold decode
  rw [List.filterMap_append, List.filter_append]

end Ascii

namespace Session

open Machine

/-- Sends command lines, as long as all goes well, and collects the transcripts. -/
def sendAll : List String → Session → Except Fault (List Transcript × Session)
  | [], s => .ok ([], s)
  | line :: lines, s =>
    match s.send line with
    | (.error fault, _) => .error fault
    | (.ok transcript, s') => do
      let (transcripts, s'') ← s'.sendAll lines
      return (transcript :: transcripts, s'')

/-- Starts a session and sends it command lines, as long as all goes well. -/
def dialogue (lines : List String) (s : Session) : Except Fault (List Transcript × Session) :=
  match s.start with
  | (.error fault, _) => .error fault
  | (.ok transcript, s') => do
    let (transcripts, s'') ← s'.sendAll lines
    return (transcript :: transcripts, s'')

/-- Transcripts tell of a run: their texts and their values, one after the other, are what the run
emitted, and the last of them ends as the run does. -/
structure Tells (transcripts : List Transcript) (outcome : Outcome) : Prop where
  text : String.join (transcripts.map Transcript.text) =
    String.ofList (Ascii.decode outcome.outputs).1
  values : transcripts.flatMap Transcript.values = (Ascii.decode outcome.outputs).2
  stop : transcripts.getLast?.map Transcript.stop = some outcome.stop

variable {s s' : Session} {m : Machine} {outcome outcome' : Outcome} {t : Transcript}
  {transcripts : List Transcript} {input : List Word} {lines : List String}

lemma tells_transcript (outcome : Outcome) : Tells [transcript outcome] outcome where
  text := by rw [List.map_singleton, String.join_cons]; exact String.append_empty
  values := List.flatMap_singleton ..
  stop := rfl

/-- A transcript in front tells of what has been emitted before. -/
lemma Tells.cons (h : Tells transcripts outcome') (outcome : Outcome) :
    Tells (transcript outcome :: transcripts)
      ⟨outcome.outputs ++ outcome'.outputs, outcome'.stop⟩ where
  text := by
    rw [List.map_cons, String.join_cons, h.text, Ascii.decode_append, String.ofList_append]
    rfl
  values := by
    rw [List.flatMap_cons, h.values, Ascii.decode_append]
    rfl
  stop := by
    obtain ⟨last, hlast, hstop⟩ := Option.map_eq_some_iff.1 h.stop
    rw [List.getLast?_cons, hlast]
    exact congrArg some hstop

/-- An exchange that goes well is a run of the machine. -/
lemma run_of_feed (h : s.feed input = (.ok t, s')) :
    ∃ outcome, s.machine.run input = (.ok outcome, s'.machine) ∧ t = transcript outcome := by
  unfold feed at h
  rcases hrun : s.machine.run input with ⟨fault | outcome, machine⟩
  · rw [hrun] at h
    cases h
  · rw [hrun] at h
    cases h
    exact ⟨outcome, rfl, rfl⟩

lemma feed_of_send {line : String} (h : s.send line = (.ok t, s')) :
    s.feed (Ascii.encodeLine line) = (.ok t, s') := by
  unfold send at h
  split at h
  · cases h
  · exact h

lemma exists_of_sendAll_cons {line : String}
    (h : s.sendAll (line :: lines) = .ok (transcripts, s')) :
    ∃ t s₁ rest, s.send line = (.ok t, s₁) ∧ s₁.sendAll lines = .ok (rest, s') ∧
      transcripts = t :: rest := by
  unfold sendAll at h
  split at h
  · cases h
  · next t s₁ hsend =>
    rcases hrest : s₁.sendAll lines with fault | ⟨rest, s''⟩
    · rw [hrest] at h
      cases h
    · rw [hrest] at h
      cases h
      exact ⟨t, s₁, rest, hsend, hrest, rfl⟩

/-- What a run and the lines that are sent behind it come to is one run on all of the input. -/
lemma exists_run_of_sendAll (hrun : m.run input = (.ok outcome, s.machine))
    (hsend : s.sendAll lines = .ok (transcripts, s')) :
    ∃ whole, m.run (input ++ lines.flatMap Ascii.encodeLine) = (.ok whole, s'.machine) ∧
      Tells (transcript outcome :: transcripts) whole := by
  -- The first line sent is a run that the remaining lines are sent behind.
  induction lines generalizing m s input outcome transcripts with
  | nil =>
    cases hsend
    rw [List.flatMap_nil, List.append_nil]
    exact ⟨outcome, hrun, tells_transcript outcome⟩
  | cons line lines ih =>
    obtain ⟨t, s₁, rest, hline, hrest, rfl⟩ := exists_of_sendAll_cons hsend
    obtain ⟨outcome₁, hrun₁, rfl⟩ := run_of_feed (feed_of_send hline)
    obtain ⟨whole, hwhole, htells⟩ := ih hrun₁ hrest
    rw [List.flatMap_cons]
    exact ⟨_, run_append hrun hwhole, htells.cons outcome⟩

/-- A dialogue that goes well is one run on the encoded lines, one after the other: the transcripts
tell of that run, and it leaves the same machine behind. -/
theorem dialogue_eq_run (m : Machine) (lines : List String)
    (h : dialogue lines ⟨m⟩ = .ok (transcripts, s)) :
    ∃ outcome, m.run (lines.flatMap Ascii.encodeLine) = (.ok outcome, s.machine) ∧
      String.join (transcripts.map Transcript.text) =
        String.ofList (Ascii.decode outcome.outputs).1 ∧
      transcripts.flatMap Transcript.values = (Ascii.decode outcome.outputs).2 ∧
      transcripts.getLast?.map Transcript.stop = some outcome.stop := by
  unfold dialogue at h
  split at h
  · cases h
  · next first s₁ hstart =>
    rcases hrest : s₁.sendAll lines with fault | ⟨rest, s'⟩
    · rw [hrest] at h
      cases h
    · rw [hrest] at h
      cases h
      obtain ⟨outcome, hrun, rfl⟩ := run_of_feed hstart
      obtain ⟨whole, hwhole, htells⟩ := exists_run_of_sendAll hrun hrest
      exact ⟨whole, hwhole, htells.text, htells.values, htells.stop⟩

/-- A program that emits its input. -/
def echoing : Program := ⟨#[3, 20, 4, 20, 1105, 1, 0].map Word.ofCount⟩

/-- A line with a letter that is no ASCII character, and an empty one. -/
theorem dialogue_eq_run_echoing :
    ∃ s, dialogue ["né", ""] ⟨boot echoing {}⟩ =
        .ok ([⟨"", [], .awaitingInput⟩,
          ⟨"n\n", [Word.ofByte 195, Word.ofByte 169], .awaitingInput⟩,
          ⟨"\n", [], .awaitingInput⟩], s) ∧
      ∃ outcome, (boot echoing {}).run (["né", ""].flatMap Ascii.encodeLine) =
          (.ok outcome, s.machine) ∧
        String.ofList (Ascii.decode outcome.outputs).1 = "n\n\n" ∧
        (Ascii.decode outcome.outputs).2 = [Word.ofByte 195, Word.ofByte 169] := by
  have htranscripts : (dialogue ["né", ""] ⟨boot echoing {}⟩).toOption.map Prod.fst =
      some [⟨"", [], .awaitingInput⟩,
        ⟨"n\n", [Word.ofByte 195, Word.ofByte 169], .awaitingInput⟩,
        ⟨"\n", [], .awaitingInput⟩] := by
    decide +kernel
  rcases hdialogue : dialogue ["né", ""] ⟨boot echoing {}⟩ with fault | ⟨transcripts, s⟩
  · rw [hdialogue] at htranscripts
    cases htranscripts
  · rw [hdialogue] at htranscripts
    cases htranscripts
    obtain ⟨outcome, hrun, htext, hvalues, _⟩ := dialogue_eq_run _ _ hdialogue
    exact ⟨s, rfl, outcome, hrun, htext.symm.trans (by decide +kernel),
      hvalues.symm.trans (by decide +kernel)⟩

end Session

end Intcode
