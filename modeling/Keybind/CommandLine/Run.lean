import Keybind.CommandLine.Arguments
import Keybind.Config.Layers
import Keybind.Log
import Keybind.Output

/-!
# The command line

A run turns arguments into an exit code and two texts, and at most writes the
one file it was asked to write. It does so only after everything else has gone
well. Standard output and the error stream are taken to accept everything that
is put out.
-/

namespace Keybind

/-- What a run leaves besides the file it may have written. -/
structure Outcome where
  code : Nat := 0
  stdout : String := ""
  /-- What goes to the error stream, line by line. -/
  stderr : List String := []
  deriving DecidableEq, Repr

namespace Outcome

/-- A run that failed, with what is to be said about it. -/
def failed (stderr : List String) : Outcome :=
  { code := 1, stderr }

end Outcome

namespace CommandLine

/-- The name and version of the program. -/
def versionText : String :=
  "hwk2lua 0.1.0\n"

/-- How the program is used. -/
def helpText : String :=
  "Transpile hwk keybinding scripts to Lua\n\n"
    ++ "Usage: hwk2lua [OPTIONS] [path]\n\n"
    ++ "Options:\n"
    ++ String.join (Flag.all.map fun flag => "  " ++ flag.label ++ "\n")

/-- The list of output formats. -/
def formatsText : String :=
  "Available output formats:\n\n"
    ++ String.join (Format.all.map fun format =>
      "  " ++ format.name ++ "\n    " ++ format.description ++ "\n")

/-- The first line of a text. -/
def firstLine (s : String) : String :=
  String.ofList (s.toList.takeWhile (· ≠ '\n'))

/-- What is left of a run whose arguments are not read to their end. -/
def halted : Halt → Outcome
  | .usage error => .failed [firstLine error.message]
  | .help => { stdout := helpText }
  | .version => { stdout := versionText }

/-- The layers of the configuration that the arguments ask for. -/
def layers (arguments : Arguments) : List Layer :=
  (arguments.config.map fun path => Layer.file path true).toList
    ++ (arguments.format.map fun format =>
      Layer.setting [.key "output", .key "format"] (.scalar none (.text format.name))).toList

/-- The filter of a run: the one from the environment if all of it is well-formed, or else what is
well-formed of the one asked for. -/
def filter (environment : Option String) (config : Config) (arguments : Arguments) : LogFilter :=
  (environment.bind LogFilter.parse?).getD
    (.parseLenient (filterFor config.filter arguments.verbosity))

variable {m : Type → Type} [Monad m]

/-- The output of a run that has got so far, written where it was asked for. -/
def deliver (files : Files m) (log : List String) (output : Option String) (text : List Char) :
    m Outcome := do
  let text := String.ofList text
  match output with
  | none => return { stdout := text, stderr := log }
  | some target =>
    match ← files.write target text.toUTF8 with
    | .ok () => return { stderr := log }
    | .error e => return .failed (log ++ ["Error writing " ++ target ++ ": " ++ e.message])

/-- A run on a script, with its configuration. -/
def runScript (files : Files m) (environment : Option String) (arguments : Arguments)
    (config : Config) (path : String) : m Outcome := do
  let format := if arguments.check then .lua else config.format
  let run ← renderFile files config.options format path
  let log := logLines (filter environment config arguments) run.events
  match run.outcome with
  | .error e => return .failed (log ++ ["Error: " ++ e.message])
  | .ok text =>
    if arguments.check then return { stderr := log }
    else deliver files log arguments.output text

/-- A run of the program; `environment` is the filter that the environment asks for. -/
def run (files : Files m) (environment : Option String) (args : List String) : m Outcome := do
  match Arguments.read args with
  | .error halt => return halted halt
  | .ok arguments =>
    if arguments.listFormats then return { stdout := formatsText }
    match ← Config.load files (layers arguments) with
    | .error e => return .failed ["Configuration error: " ++ e.message]
    | .ok config =>
      match arguments.path with
      | none => return .failed ["Error: missing <path>"]
      | some path => runScript files environment arguments config path

end CommandLine

end Keybind
