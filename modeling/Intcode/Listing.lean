import Intcode.Instruction
import Intcode.Program

/-!
# Listings

How instructions are shown, and the listing of a whole program image. An operand in `position` mode
is shown as `[p]`, a value as `#p`, and an offset from the relative base as `[rb+p]` or `[rb-p]`;
the operand that names the cell written to comes last behind an arrow, except that the only operand
of an input stands where operands that are read stand.

Programs mix instructions and data freely, so a listing is a best effort: it walks through the
image and lists a word as data if the word does not decode or if the image ends before the
instruction does. `Program.blocks` is this walk, and `Block.line` shows one of its steps.
-/
namespace Intcode

/-- A parameter as listings show it in this mode. -/
def Mode.operand (m : Mode) (param : Word) : List Char :=
  match m with
  | .position => '[' :: param.chars ++ [']']
  | .immediate => '#' :: param.chars
  | .relative =>
    ['[', 'r', 'b'] ++ (if param.toInt < 0 then [] else ['+']) ++ param.chars ++ [']']

/-- The number of operands shown in front of the arrow. -/
def Opcode.sourceCount (o : Opcode) : Nat :=
  match o.writeParam? with
  | some (k + 1) => k + 1
  | _ => o.arity

namespace Instruction

/-- An instruction with its parameters. Parameters beyond the arity are left out. -/
def render (i : Instruction) (params : List Word) : List Char :=
  let operands := (params.take i.opcode.arity).mapIdx fun k param => (i.mode k).operand param
  let sources := operands.take i.opcode.sourceCount
  let target := operands.drop i.opcode.sourceCount
  i.opcode.mnemonic.toList ++ (if sources.isEmpty then [] else [' ']) ++
    List.intercalate [',', ' '] sources ++ target.flatMap fun operand => [' ', '-', '>', ' '] ++ operand

end Instruction

/-- One entry of a listing. -/
inductive Block where
  /-- An instruction at an address, with its parameters. -/
  | code (address : Nat) (instruction : Instruction) (params : List Word)
  /-- A word at an address that is listed as data. -/
  | data (address : Nat) (word : Word)
  deriving DecidableEq

namespace Block

/-- The address of the entry's first word. -/
def address : Block → Nat
  | code address _ _ => address
  | data address _ => address

/-- The number of words that the entry covers. -/
def width : Block → Nat
  | code _ instruction _ => instruction.width
  | data _ _ => 1

/-- The line of a listing that shows the entry. -/
def line : Block → List Char
  | code address instruction params =>
    Decimal.padded 4 address ++ [':', ' '] ++ instruction.render params
  | data address word =>
    Decimal.padded 4 address ++ [':', ' ', 'D', 'A', 'T', 'A', ' '] ++ word.chars

theorem length_drop_lt_length_cons {α : Type} (n : Nat) (x : α) (xs : List α) :
    (xs.drop n).length < (x :: xs).length := by
  rw [List.length_drop, List.length_cons]
  omega

/-- The entries for words that begin at an address. -/
def ofCells (address : Nat) : List Word → List Block
  | [] => []
  | word :: rest =>
    match Instruction.decode word with
    | .error _ => data address word :: ofCells (address + 1) rest
    | .ok instruction =>
      let params := rest.take instruction.opcode.arity
      if params.length = instruction.opcode.arity then
        code address instruction params ::
          ofCells (address + instruction.width) (rest.drop instruction.opcode.arity)
      else data address word :: ofCells (address + 1) rest
termination_by cells => cells.length
decreasing_by
  · exact Nat.lt_succ_self rest.length
  · exact length_drop_lt_length_cons instruction.opcode.arity word rest
  · exact Nat.lt_succ_self rest.length

end Block

namespace Program

/-- The entries of a program's listing. -/
def blocks (p : Program) : List Block := Block.ofCells 0 p.cells.toList

/-- The lines of a program's listing. -/
def listing (p : Program) : List String := p.blocks.map fun block => String.ofList block.line

end Program

end Intcode
