import Intcode.CommandLine.Arguments
import Intcode.Settings
import Intcode.Text.Fields
import Intcode.Text.Space

/-!
# Commands

What can be asked for on the command line, and the reading of it from arguments: options that hold
for every command may come first, then there is the name of a command, and then its own arguments.

Lists of numbers are separated by commas, and an option with a list may be given several times; the
lists are then joined. A patch is an address and a value around an equals sign.
-/
namespace Intcode.CommandLine

/-- A value to be put into memory. -/
structure Patch where
  /-- The address. -/
  address : Word
  /-- The value. -/
  value : Word
  deriving DecidableEq

/-- What can be asked for. -/
inductive Command where
  /-- Run a program, after some patches, on values and then on lines of text. The outputs are shown
  as text or as a list of values. -/
  | run (program : String) (input : List Word) (lines : List String) (ascii : Bool)
      (stepLimit : UInt64) (patches : List Patch)
  /-- Run a program and show each instruction that it executes. -/
  | trace (program : String) (input : List Word)
  /-- List a program. -/
  | disassemble (program : String)
  /-- Run an amplifier, in the given order of phases if that is `fixed`, or else in the best. -/
  | amplify (program : String) (phases : List Word) (feedback fixed : Bool) (signal : Word)
  /-- Run a mesh, with settings from a file, and a number of nodes that overrides theirs. The
  outcome is shown as JSON or as lines of text. -/
  | network (program : String) (nodes : Option UInt64) (settings : Option String) (json : Bool)
  /-- Run a program and save the machine. -/
  | snapshot (program : String) (input : List Word) (output : String)
  /-- Go on with a machine that has been saved, and possibly save it again. -/
  | resume (saved : String) (input : List Word) (output : Option String) (stepLimit : UInt64)
  deriving DecidableEq

/-! ### Reading values -/

/-- The number that a text stands for. -/
def readWord (name : String) (text : List Char) : Except UsageError Word :=
  match Word.ofChars? text with
  | some value => .ok value
  | none => .error (.invalidValue name (String.ofList text))

/-- The unsigned number that a text stands for. -/
def readCount (name text : String) : Except UsageError UInt64 :=
  match Decimal.readUnsigned? text.toList with
  | some n =>
    if n < 18446744073709551616 then .ok (UInt64.ofNat n) else .error (.invalidValue name text)
  | none => .error (.invalidValue name text)

/-- The name of a file, which cannot be empty. -/
def readFileName (name text : String) : Except UsageError String :=
  if text.isEmpty then .error (.invalidValue name text) else .ok text

/-- The patch that a text stands for. White space around the two numbers does not matter. -/
def readPatch (name text : String) : Except UsageError Patch :=
  match text.toList.dropWhile (· ≠ '=') with
  | [] => .error (.invalidValue name text)
  | _ :: value => do
    let address := text.toList.takeWhile (· ≠ '=')
    return ⟨← readWord name (Text.trim address), ← readWord name (Text.trim value)⟩

namespace Arguments

/-- The numbers in the lists that an option is given. -/
def words (a : Arguments) (name : String) : Except UsageError (List Word) :=
  ((a.values name).flatMap fun text => Text.fields ',' text.toList).mapM (readWord name)

/-- The number that an option is given, or its default value. -/
def count (a : Arguments) (name : String) (default : UInt64) : Except UsageError UInt64 := do
  match ← a.value? name with
  | some text => readCount name text
  | none => return default

/-- The name of the file that is the free argument. -/
def fileName (a : Arguments) : Except UsageError String := do
  readFileName "file" (← a.free "file")

/-- The name of a file that an option may be given. -/
def fileName? (a : Arguments) (name : String) : Except UsageError (Option String) := do
  (← a.value? name).mapM (readFileName name)

end Arguments

/-! ### Reading commands -/

namespace Command

/-- The option that every command has, and that may also stand in front of the command. -/
def verbose : OptionSpec := .flag "verbose" (some 'v')

/-- The option for input. -/
def input : OptionSpec := .number "input" (some 'i')

/-- The number of instructions that may be executed unless an option says otherwise. -/
def defaultStepLimit : UInt64 := ({} : Machine.Settings).stepLimit

/-- The items of a command's own arguments. -/
def arguments (specs : List OptionSpec) (own : List String) : Except UsageError Arguments := do
  let a : Arguments := ⟨← Item.ofArguments (verbose :: specs) own⟩
  let _ ← a.flag verbose.name
  return a

/-- The command with a name and its own arguments. -/
def ofName (name : String) (own : List String) : Except UsageError Command :=
  match name with
  | "run" => do
    let a ← arguments [input, .text "line" (some 'l'), .flag "ascii" none,
      .text "max-steps" none, .text "poke" none] own
    return .run (← a.fileName) (← a.words "input") (a.values "line") (← a.flag "ascii")
      (← a.count "max-steps" defaultStepLimit) (← (a.values "poke").mapM (readPatch "poke"))
  | "trace" => do
    let a ← arguments [input] own
    return .trace (← a.fileName) (← a.words "input")
  | "disasm" => do
    let a ← arguments [] own
    return .disassemble (← a.fileName)
  | "amplify" => do
    let a ← arguments [.number "phases" none, .flag "feedback" none, .flag "fixed" none,
      .number "signal" none] own
    if (a.values "phases").isEmpty then throw (.missingOption "phases")
    let signal ← match ← a.value? "signal" with
      | some text => readWord "signal" text.toList
      | none => pure 0
    return .amplify (← a.fileName) (← a.words "phases") (← a.flag "feedback") (← a.flag "fixed")
      signal
  | "network" => do
    let a ← arguments [.text "nodes" none, .text "config" none, .flag "json" none] own
    let nodes ← (← a.value? "nodes").mapM (readCount "nodes")
    return .network (← a.fileName) nodes (← a.fileName? "config") (← a.flag "json")
  | "snapshot" => do
    let a ← arguments [input, .text "output" (some 'o')] own
    match ← a.fileName? "output" with
    | some output => return .snapshot (← a.fileName) (← a.words "input") output
    | none => throw (.missingOption "output")
  | "resume" => do
    let a ← arguments [input, .text "output" (some 'o'), .text "max-steps" none] own
    return .resume (← a.fileName) (← a.words "input") (← a.fileName? "output")
      (← a.count "max-steps" defaultStepLimit)
  | _ => .error (.unknownCommand name)

/-- The items in front of the command's name, the name, and the arguments behind it. -/
def split : List String → Except UsageError (List Item × String × List String)
  | [] => .error .missingCommand
  | argument :: rest =>
    if argument = "--" then .error .missingCommand
    else
      match Item.ofArgument [verbose] argument with
      | .error error => .error error
      | .ok ([.free name], _) => .ok ([], name, rest)
      | .ok (items, _) => do
        let (more, name, own) ← split rest
        return (items ++ more, name, own)

/-- The command that the arguments of a command line stand for. -/
def ofArguments (all : List String) : Except UsageError Command := do
  let (items, name, own) ← split all
  let _ ← Arguments.flag ⟨items⟩ verbose.name
  ofName name own

end Command

end Intcode.CommandLine
