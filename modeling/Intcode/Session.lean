import Intcode.Machine.Run

/-!
# Text sessions

Conventions for programs that talk in text. A command line goes in as the bytes of its encoded
text, followed by a line feed. What comes out is split: values that are ASCII codes make up a text,
and all others, such as a final result, are kept as values.

A session is a machine that is talked to line by line. Each exchange runs the machine until it asks
for the next line, halts or faults.
-/
namespace Intcode

namespace Ascii

/-- The values of a command line: its bytes and a line feed. -/
def encodeLine (line : String) : List Word :=
  line.toUTF8.data.toList.map Word.ofByte ++ [Word.ofByte 10]

/-- The character whose ASCII code a value is. -/
def char? (value : Word) : Option Char :=
  if 0 ≤ value.toInt ∧ value.toInt < 128 then some (Char.ofNat value.toInt.toNat) else none

/-- The characters among some values, and the values that are no characters. -/
def decode (values : List Word) : List Char × List Word :=
  (values.filterMap char?, values.filter fun value => (char? value).isNone)

end Ascii

/-- What a program printed between two requests for input. -/
structure Transcript where
  /-- The characters that were emitted. -/
  text : String
  /-- The other values that were emitted. -/
  values : List Word
  /-- How the run stopped. -/
  stop : Stop
  deriving DecidableEq

/-- A machine that is talked to line by line. -/
structure Session where
  /-- The machine. -/
  machine : Machine

namespace Session

/-- The transcript of a run. -/
def transcript (outcome : Outcome) : Transcript :=
  let (chars, values) := Ascii.decode outcome.outputs
  ⟨String.ofList chars, values, outcome.stop⟩

/-- Feeds values to the machine and runs it. -/
def feed (inputs : List Word) (s : Session) : Except Fault Transcript × Session :=
  let (answer, machine) := s.machine.run inputs
  (answer.map transcript, ⟨machine⟩)

/-- Runs up to the first request for input. -/
def start (s : Session) : Except Fault Transcript × Session := s.feed []

/-- Sends a command line and runs up to the next request for input. A machine that has halted is
sent nothing. -/
def send (line : String) (s : Session) : Except Fault Transcript × Session :=
  if s.machine.isHalted then (.error .halted, s) else s.feed (Ascii.encodeLine line)

end Session

end Intcode
