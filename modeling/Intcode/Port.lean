import Intcode.Fault

/-!
# Ports

The outside world as input and output instructions see it. A `Port σ` answers requests for input
and takes output, and keeps a state of type `σ` between the two. Asked for input, a port may have a
value, have none at present, or fail; it may also refuse an output by failing.

Three ports are given here: `Port.detached`, which has no input and forgets its output;
`Port.buffered`, which takes inputs from one list and collects outputs in another; and
`Port.scripted`, which answers requests for input as laid down and takes a limited number of
outputs.
-/
namespace Intcode

/-- The outside world with a state of type `σ`. -/
structure Port (σ : Type) where
  /-- Asks for an input value; the answer `none` suspends the machine. -/
  receive : σ → Except Fault (Option Word) × σ
  /-- Hands over an output value. -/
  send : Word → σ → Except Fault Unit × σ

/-- Inputs that are waiting and outputs that have been collected. -/
structure Buffer where
  /-- The values that are still to be received. -/
  inputs : List Word
  /-- The values that have been sent. -/
  outputs : Array Word
  deriving DecidableEq

/-- Answers that are laid down, and outputs that have been collected. -/
structure Script where
  /-- The answers to the next requests for input; after them there is no input. -/
  replies : List (Except Fault (Option Word))
  /-- The values that have been sent. -/
  sent : Array Word
  /-- The number of values that can be sent in all, if it is limited. -/
  room : Option Nat

namespace Port

/-- A port with nothing behind it. -/
def detached : Port Unit where
  receive s := (.ok none, s)
  send _ s := (.ok (), s)

/-- The next input of a buffer, and the buffer without it. -/
def receiveBuffered (b : Buffer) : Except Fault (Option Word) × Buffer :=
  match b with
  | ⟨[], outputs⟩ => (.ok none, ⟨[], outputs⟩)
  | ⟨value :: rest, outputs⟩ => (.ok (some value), ⟨rest, outputs⟩)

/-- A port in front of a buffer. -/
def buffered : Port Buffer where
  receive := receiveBuffered
  send value b := (.ok (), { b with outputs := b.outputs.push value })

/-- The next answer of a script, and the script without it. -/
def receiveScripted (s : Script) : Except Fault (Option Word) × Script :=
  match s.replies with
  | [] => (.ok none, s)
  | reply :: rest => (reply, { s with replies := rest })

/-- Takes a value, unless there is no room for it. -/
def sendScripted (value : Word) (s : Script) : Except Fault Unit × Script :=
  if s.room.all fun room => s.sent.size < room then
    (.ok (), { s with sent := s.sent.push value })
  else (.error .channelClosed, s)

/-- A port that follows a script. -/
def scripted : Port Script where
  receive := receiveScripted
  send := sendScripted

end Port

end Intcode
