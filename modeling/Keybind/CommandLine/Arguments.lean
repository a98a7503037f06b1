import Keybind.Format
import Keybind.Text.Terminal

/-!
# Arguments

The arguments of the command line are taken one by one. The value of an option
may be attached to it or be the next argument; in the second case it is looked
at only when the next option or the path has been met, or at the end. After
`--` everything is a path.
-/

namespace Keybind

/-- The options of the command line. -/
inductive Flag where
  | format
  | config
  | output
  | check
  | verbose
  | listFormats
  | help
  | version
  deriving DecidableEq, Repr, Inhabited

namespace Flag

/-- All options. -/
def all : List Flag :=
  [format, config, output, check, verbose, listFormats, help, version]

/-- The long name of an option. -/
def long : Flag → String
  | format => "format"
  | config => "config"
  | output => "output"
  | check => "check"
  | verbose => "verbose"
  | listFormats => "list-formats"
  | help => "help"
  | version => "version"

/-- The letter of an option that has one. -/
def short? : Flag → Option Char
  | format => some 'f'
  | config => some 'c'
  | output => some 'o'
  | verbose => some 'v'
  | help => some 'h'
  | version => some 'V'
  | check => none
  | listFormats => none

/-- Whether an option has a value. -/
def takesValue : Flag → Bool
  | format | config | output => true
  | _ => false

/-- The option as complaints name it. -/
def label (flag : Flag) : String :=
  "--" ++ flag.long ++
    if flag.takesValue then " <" ++ flag.long ++ ">" else if flag = verbose then "..." else ""

/-- The option of a long name. -/
def ofLong? (name : List Char) : Option Flag :=
  all.find? (·.long.toList = name)

/-- The option of a letter. -/
def ofShort? (c : Char) : Option Flag :=
  all.find? (·.short? = some c)

end Flag

/-- Why the arguments cannot be used. -/
inductive UsageError where
  | unexpected (argument : String)
  | valueRequired (flag : Flag)
  | invalidValue (value : String) (flag : Flag)
  | repeated (flag : Flag)
  /-- A value is attached to an option that has none. -/
  | unneededValue (value : String) (flag : Flag)
  | missingPath
  deriving DecidableEq, Repr

/-- The error in words. What was given is repeated as a terminal shows it. -/
def UsageError.message : UsageError → String
  | unexpected argument => "error: unexpected argument '" ++ Text.shown argument ++ "' found"
  | valueRequired flag =>
    "error: a value is required for '" ++ flag.label ++ "' but none was supplied"
  | invalidValue value flag =>
    "error: invalid value '" ++ Text.shown value ++ "' for '" ++ flag.label ++ "'"
  | repeated flag => "error: the argument '" ++ flag.label ++ "' cannot be used multiple times"
  | unneededValue value flag =>
    "error: unexpected value '" ++ Text.shown value ++ "' for '" ++ flag.label
      ++ "' found; no more were expected"
  | missingPath => "error: the following required arguments were not provided:"

/-- What the arguments ask for. -/
structure Arguments where
  path : Option String := none
  format : Option Format := none
  config : Option String := none
  output : Option String := none
  check : Bool := false
  verbosity : Nat := 0
  listFormats : Bool := false
  deriving DecidableEq, Repr

/-- Why the arguments are not read to their end. -/
inductive Halt where
  | usage (error : UsageError)
  | help
  | version
  deriving DecidableEq, Repr

namespace Arguments

/-! ## Options -/

/-- The arguments with the value of an option. An option has one value at most. -/
def store (arguments : Arguments) (flag : Flag) (value : String) : Except Halt Arguments :=
  match flag with
  | .format =>
    if arguments.format.isSome then .error (.usage (.repeated flag))
    else
      match Format.ofName? value with
      | some format => .ok { arguments with format := some format }
      | none =>
        .error (.usage (if value = "" then .valueRequired flag else .invalidValue value flag))
  | .config =>
    if arguments.config.isSome then .error (.usage (.repeated flag))
    else .ok { arguments with config := some value }
  | .output =>
    if arguments.output.isSome then .error (.usage (.repeated flag))
    else .ok { arguments with output := some value }
  | _ => .error (.usage (.unneededValue value flag))

/-- The arguments with an option that has no value. -/
def switch (arguments : Arguments) (flag : Flag) : Except Halt Arguments :=
  match flag with
  | .check =>
    if arguments.check then .error (.usage (.repeated flag))
    else .ok { arguments with check := true }
  | .listFormats =>
    if arguments.listFormats then .error (.usage (.repeated flag))
    else .ok { arguments with listFormats := true }
  | .verbose => .ok { arguments with verbosity := arguments.verbosity + 1 }
  | .help => .error .help
  | .version => .error .version
  | _ => .error (.usage (.valueRequired flag))

end Arguments

/-! ## Reading -/

/-- An option whose value has not been looked at. -/
inductive Pending where
  | none
  /-- The next argument is the value. -/
  | awaiting (flag : Flag)
  | given (flag : Flag) (value : String)
  deriving DecidableEq, Repr

/-- The state between two arguments. -/
structure ArgumentReader where
  arguments : Arguments := {}
  pending : Pending := .none
  /-- Whether `--` has been met. -/
  escaped : Bool := false
  deriving DecidableEq, Repr

namespace ArgumentReader

/-- The arguments with the pending value looked at. -/
def settle (reader : ArgumentReader) : Except Halt Arguments :=
  match reader.pending with
  | .none => .ok reader.arguments
  | .awaiting flag => .error (.usage (.valueRequired flag))
  | .given flag value => reader.arguments.store flag value

/-- The reader with nothing pending and other arguments. -/
def withArguments (reader : ArgumentReader) (arguments : Arguments) : ArgumentReader :=
  { reader with arguments, pending := .none }

/-- An option with a value, which may be attached. -/
def takeOption (reader : ArgumentReader) (flag : Flag) (attached : Option (List Char)) :
    Except Halt ArgumentReader := do
  let arguments ← reader.settle
  match attached with
  | some value => return reader.withArguments (← arguments.store flag (String.ofList value))
  | none => return { reader with arguments, pending := .awaiting flag }

/-- An option without a value. -/
def takeSwitch (reader : ArgumentReader) (flag : Flag) : Except Halt ArgumentReader := do
  return reader.withArguments (← (← reader.settle).switch flag)

/-- An argument after its two dashes: a name, and what follows an equals sign. -/
def takeLong (reader : ArgumentReader) (cs : List Char) : Except Halt ArgumentReader :=
  let name := cs.takeWhile (· ≠ '=')
  let attached := match cs.dropWhile (· ≠ '=') with
    | [] => none
    | _ :: value => some value
  match Flag.ofLong? name with
  | none => .error (.usage (.unexpected ("--" ++ String.ofList name)))
  | some flag =>
    if flag.takesValue then reader.takeOption flag attached
    else
      match attached with
      | some value => .error (.usage (.unneededValue (String.ofList value) flag))
      | none => reader.takeSwitch flag

/-- An argument after its dash: letters, of which the last may have a value attached. -/
def takeShort (reader : ArgumentReader) : List Char → Except Halt ArgumentReader
  | [] => .ok reader
  | c :: cs =>
    match Flag.ofShort? c with
    | none => .error (.usage (.unexpected (String.ofList ['-', c])))
    | some flag =>
      if flag.takesValue then
        reader.takeOption flag (match cs with
          | [] => none
          | '=' :: value => some value
          | value => some value)
      else do
        (← reader.takeSwitch flag).takeShort cs

/-- An argument that is the path of the script. -/
def takePath (reader : ArgumentReader) (argument : String) : Except Halt ArgumentReader := do
  if reader.arguments.path.isSome then .error (.usage (.unexpected argument))
  else return reader.withArguments { ← reader.settle with path := some argument }

/-- An argument that looks like no option: the value that is awaited, or else the path. -/
def takePlain (reader : ArgumentReader) (argument : String) : Except Halt ArgumentReader :=
  match reader.pending with
  | .awaiting flag => .ok { reader with pending := .given flag argument }
  | _ => reader.takePath argument

/-- The state after an argument. -/
def take (reader : ArgumentReader) (argument : String) : Except Halt ArgumentReader :=
  if reader.escaped then reader.takePath argument
  else
    match argument.toList with
    | ['-', '-'] => .ok { reader with escaped := true }
    | '-' :: '-' :: cs => reader.takeLong cs
    | '-' :: c :: cs => reader.takeShort (c :: cs)
    | _ => reader.takePlain argument

/-- The arguments, if nothing is missing. -/
def finish (reader : ArgumentReader) : Except Halt Arguments := do
  let arguments ← reader.settle
  if arguments.path.isNone ∧ !arguments.listFormats then .error (.usage .missingPath)
  else return arguments

end ArgumentReader

/-- What a list of arguments asks for. -/
def Arguments.read (arguments : List String) : Except Halt Arguments := do
  (← arguments.foldlM ArgumentReader.take {}).finish

end Keybind
