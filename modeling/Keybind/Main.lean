import Keybind.CommandLine.Run

/-!
# The program

Runs the command line on the files of the machine.
-/

namespace Keybind

/-- An error of the machine. -/
def FileError.ofMachine : IO.Error → FileError
  | .noFileOrDirectory .. => .notFound
  | .inappropriateType _ 20 _ => .notDirectory
  | .inappropriateType _ 21 _ => .isDirectory
  | error => .other (toString error)

/-- The files of the machine. -/
def machineFiles : Files IO where
  read path := do
    match ← (IO.FS.readBinFile path).toBaseIO with
    | .ok bytes => return .ok bytes
    | .error error => return .error (.ofMachine error)
  isFile path := do
    match ← (IO.FS.readBinFile path).toBaseIO with
    | .ok _ | .error (.permissionDenied ..) => return true
    | .error _ => return false
  write path bytes := do
    match ← (IO.FS.writeBinFile path bytes).toBaseIO with
    | .ok () => return .ok ()
    | .error error => return .error (.ofMachine error)
  here := return (← IO.currentDir).toString

end Keybind

/-- The program: its arguments are those of the command line. -/
def main (args : List String) : IO UInt32 := do
  let outcome ← Keybind.CommandLine.run Keybind.machineFiles (← IO.getEnv "RUST_LOG") args
  outcome.stderr.forM IO.eprintln
  IO.print outcome.stdout
  return outcome.code.toUInt32
