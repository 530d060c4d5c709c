import Intcode.Text.Decimal

/-!
# Arguments

How the arguments of a command line are taken apart. An argument is an option, the value of an
option, or a free argument:

* `--name` is an option by its name, and `--name=value` gives it a value at once;
* `-n` is an option by its letter. Letters may be joined (`-ab`), and what follows the letter of an
  option with a value is that value (`-nvalue`, `-n=value`);
* an option that needs a value and has none yet takes the next argument, unless that looks like an
  option itself. For some options a negative number does not look like one;
* after the argument `--` all others are free.

`Item.ofArguments` takes a list of arguments apart, and `Arguments` looks up what it found.
-/
namespace Intcode.CommandLine

/-- Why the arguments make up no command. -/
inductive UsageError where
  /-- There is no command. -/
  | missingCommand
  /-- The command has a name that is not known. -/
  | unknownCommand (name : String)
  /-- An option has a name or letter that is not known. -/
  | unknownOption (name : String)
  /-- An option without values is given one. -/
  | unexpectedValue (name : String)
  /-- The value of an option is missing. -/
  | missingValue (name : String)
  /-- An option is given more often than once. -/
  | repeatedOption (name : String)
  /-- An option is missing. -/
  | missingOption (name : String)
  /-- A value cannot be read. -/
  | invalidValue (name text : String)
  /-- The free argument is missing. -/
  | missingArgument (name : String)
  /-- There are more free arguments than one. -/
  | extraArgument (text : String)
  deriving DecidableEq, Repr

/-- The report of arguments that make up no command. -/
def UsageError.message : UsageError → String
  | missingCommand => "a command is required"
  | unknownCommand name => "unknown command '" ++ name ++ "'"
  | unknownOption name => "unknown option '" ++ name ++ "'"
  | unexpectedValue name => "option '--" ++ name ++ "' takes no value"
  | missingValue name => "option '--" ++ name ++ "' needs a value"
  | repeatedOption name => "option '--" ++ name ++ "' is given more than once"
  | missingOption name => "option '--" ++ name ++ "' is required"
  | invalidValue name text => "invalid value '" ++ text ++ "' for '" ++ name ++ "'"
  | missingArgument name => "argument '" ++ name ++ "' is required"
  | extraArgument text => "unexpected argument '" ++ text ++ "'"

/-- An option that a command knows. -/
structure OptionSpec where
  /-- The name. -/
  name : String
  /-- The letter that may stand for the name. -/
  letter : Option Char
  /-- Whether the option has a value. -/
  valued : Bool
  /-- Whether the value may be a negative number in an argument of its own. -/
  signed : Bool
  deriving DecidableEq

namespace OptionSpec

/-- An option without a value. -/
def flag (name : String) (letter : Option Char) : OptionSpec := ⟨name, letter, false, false⟩

/-- An option with a value. -/
def text (name : String) (letter : Option Char) : OptionSpec := ⟨name, letter, true, false⟩

/-- An option with a value that may be negative. -/
def number (name : String) (letter : Option Char) : OptionSpec := ⟨name, letter, true, true⟩

/-- Tells whether an argument can be the value of the option that stands before it. -/
def accepts (spec : OptionSpec) : List Char → Bool
  | '-' :: rest => rest.isEmpty || (spec.signed && (Decimal.readNat? rest).isSome)
  | _ => true

end OptionSpec

/-- A part of a command line. -/
inductive Item where
  /-- An option without a value. -/
  | flag (name : String)
  /-- An option with its value. -/
  | value (name text : String)
  /-- A free argument. -/
  | free (text : String)
  deriving DecidableEq, Repr

namespace Item

/-- What joined letters stand for, and the option among them that still needs a value. -/
def ofLetters (specs : List OptionSpec) :
    List Char → Except UsageError (List Item × Option OptionSpec)
  | [] => .ok ([], none)
  | c :: rest =>
    match specs.find? fun spec => spec.letter = some c with
    | none => .error (.unknownOption (String.ofList ['-', c]))
    | some spec =>
      if spec.valued then
        match rest with
        | [] => .ok ([], some spec)
        | '=' :: text => .ok ([.value spec.name (String.ofList text)], none)
        | text => .ok ([.value spec.name (String.ofList text)], none)
      else do
        let (items, waiting) ← ofLetters specs rest
        return (.flag spec.name :: items, waiting)

/-- What a name stands for, with or without a value, and the option if it still needs one. -/
def ofName (specs : List OptionSpec) (argument : List Char) :
    Except UsageError (List Item × Option OptionSpec) :=
  let name := String.ofList (argument.takeWhile (· ≠ '='))
  match specs.find? fun spec => spec.name = name with
  | none => .error (.unknownOption ("--" ++ name))
  | some spec =>
    match argument.dropWhile (· ≠ '=') with
    | [] => if spec.valued then .ok ([], some spec) else .ok ([.flag spec.name], none)
    | _ :: text =>
      if spec.valued then .ok ([.value spec.name (String.ofList text)], none)
      else .error (.unexpectedValue spec.name)

/-- What an argument other than `--` stands for if no option is waiting for a value. -/
def ofArgument (specs : List OptionSpec) (argument : String) :
    Except UsageError (List Item × Option OptionSpec) :=
  match argument.toList with
  | '-' :: '-' :: name => ofName specs name
  | '-' :: c :: rest => ofLetters specs (c :: rest)
  | _ => .ok ([.free argument], none)

/-- The items that arguments stand for, if an option is waiting for a value or none is. -/
def ofArgumentsFrom (specs : List OptionSpec) :
    Option OptionSpec → List String → Except UsageError (List Item)
  | none, [] => .ok []
  | some spec, [] => .error (.missingValue spec.name)
  | some spec, argument :: rest =>
    if spec.accepts argument.toList then do
      return .value spec.name argument :: (← ofArgumentsFrom specs none rest)
    else .error (.missingValue spec.name)
  | none, argument :: rest =>
    if argument = "--" then .ok (rest.map free)
    else do
      let (items, waiting) ← ofArgument specs argument
      return items ++ (← ofArgumentsFrom specs waiting rest)

/-- The items that arguments stand for. -/
def ofArguments (specs : List OptionSpec) (arguments : List String) :
    Except UsageError (List Item) :=
  ofArgumentsFrom specs none arguments

/-- The value that an item gives to an option. -/
def valueOf? (name : String) : Item → Option String
  | value other text => if other = name then some text else none
  | _ => none

/-- The text of a free argument. -/
def free? : Item → Option String
  | free text => some text
  | _ => none

end Item

/-- The items of a command line. -/
structure Arguments where
  /-- The items in order. -/
  items : List Item
  deriving DecidableEq, Repr

namespace Arguments

/-- The values of an option, in order. -/
def values (a : Arguments) (name : String) : List String := a.items.filterMap (Item.valueOf? name)

/-- The value of an option that may be given once. -/
def value? (a : Arguments) (name : String) : Except UsageError (Option String) :=
  match a.values name with
  | [] => .ok none
  | [text] => .ok (some text)
  | _ => .error (.repeatedOption name)

/-- Whether a flag is given, which it may be once. -/
def flag (a : Arguments) (name : String) : Except UsageError Bool :=
  match a.items.count (.flag name) with
  | 0 => .ok false
  | 1 => .ok true
  | _ => .error (.repeatedOption name)

/-- The only free argument. -/
def free (a : Arguments) (name : String) : Except UsageError String :=
  match a.items.filterMap Item.free? with
  | [] => .error (.missingArgument name)
  | [text] => .ok text
  | _ :: text :: _ => .error (.extraArgument text)

end Arguments

end Intcode.CommandLine
