import Keybind.Format
import Keybind.Listing
import Keybind.Script

/-!
# Output

A script in one of the output formats. Listings never fail, whatever the script
holds.
-/

namespace Keybind

/-- Why there is no output. -/
inductive OutputError where
  | file (error : FileError)
  | transpile (error : TranspileError)
  | invalidFormat (name : String)
  deriving DecidableEq, Repr

/-- The error in words. -/
def OutputError.message : OutputError → String
  | file error => "IO error: " ++ error.message
  | transpile error => error.message
  | invalidFormat name => "Invalid format: " ++ name ++ " (available: " ++ Format.names ++ ")"

/-- The format of a name. -/
def Format.ofName (name : String) : Except OutputError Format :=
  match ofName? name with
  | some format => .ok format
  | none => .error (.invalidFormat name)

/-- A source in a format. -/
def render (options : Options) (format : Format) (cs : List Char) :
    Traced (Except TranspileError (List Char)) :=
  match format with
  | .lua => trace options cs
  | .segments => ⟨[], .ok (listLines (lex cs))⟩
  | .segmentsJson => ⟨[], .ok (listJson (lex cs))⟩

/-- A script in a format; only hwk is turned into Lua. -/
def Script.render (options : Options) (format : Format) (script : Script) :
    Traced (Except TranspileError (List Char)) :=
  match format with
  | .lua => script.toLua options
  | format => Keybind.render options format script.source.toList

/-- The script of a file in a format. -/
def renderFile {m : Type → Type} [Monad m] (files : Files m) (options : Options) (format : Format)
    (path : String) : m (Traced (Except OutputError (List Char))) := do
  let loaded ← Script.load files path
  match loaded.outcome with
  | .error e => return ⟨loaded.events, .error (.file e)⟩
  | .ok script =>
    let run := script.render options format
    return ⟨loaded.events ++ run.events, run.outcome.mapError .transpile⟩

end Keybind
