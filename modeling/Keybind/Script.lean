import Keybind.Disk
import Keybind.Transpile

/-!
# Scripts

A script is a file with a name and a language. Lua scripts run as they are, all
others are turned into Lua first.
-/

namespace Keybind

/-- A script that has been read. -/
structure Script where
  name : String
  kind : ScriptKind
  source : String
  deriving DecidableEq, Repr

namespace Script

/-- The script with the given text, named and treated as its path says. -/
def ofPath (path : String) (source : String) : Script where
  name := String.ofList (scriptName path.toList)
  kind := ScriptKind.ofPath path.toList
  source := source

/-- The script of a file. A name that the daemon would refuse is reported but read all the same. -/
def load {m : Type → Type} [Monad m] (files : Files m) (path : String) :
    m (Traced (Except FileError Script)) := do
  let warnings := if isLoadable path.toList then [] else [Event.refused path]
  match ← files.readText path with
  | .error e => return ⟨warnings, .error e⟩
  | .ok source =>
    let script := ofPath path source
    return ⟨warnings ++ [.loaded script.name script.kind], .ok script⟩

/-- Whether the script runs as it is. -/
def isPlain (script : Script) : Bool :=
  script.kind = .lua

/-- The Lua of a script, with the events of the run. -/
def toLua (options : Options) (script : Script) : Traced (Except TranspileError (List Char)) :=
  if script.isPlain then ⟨[], .ok script.source.toList⟩ else trace options script.source.toList

end Script

end Keybind
