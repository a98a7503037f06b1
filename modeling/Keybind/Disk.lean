import Keybind.Script.Path
import Keybind.Text.Basic

/-!
# Files

Files are reached through a few operations, which may be those of the machine
or those of a disk kept as a value. A path is walked part by part, as the
machine does it, so each way of not arriving has its own error.
-/

namespace Keybind

/-- Why a file cannot be read or written. -/
inductive FileError where
  | notFound
  | notDirectory
  | isDirectory
  | nameTooLong
  | nulInName
  | notUtf8
  /-- Any other failure, in the words of the machine. -/
  | other (text : String)
  deriving DecidableEq, Repr, Inhabited

/-- The error in words. -/
def FileError.message : FileError → String
  | notFound => "No such file or directory (os error 2)"
  | notDirectory => "Not a directory (os error 20)"
  | isDirectory => "Is a directory (os error 21)"
  | nameTooLong => "File name too long (os error 36)"
  | nulInName => "file name contained an unexpected NUL byte"
  | notUtf8 => "stream did not contain valid UTF-8"
  | other text => text

/-- Access to files. -/
structure Files (m : Type → Type) where
  /-- The content of a file. -/
  read : String → m (Except FileError ByteArray)
  /-- Whether there is a file, and not a directory, at a path. -/
  isFile : String → m Bool
  /-- Makes or replaces a file. -/
  write : String → ByteArray → m (Except FileError Unit)
  /-- The directory where relative paths start. -/
  here : m String

/-- The content of a file as text. -/
def Files.readText {m : Type → Type} [Monad m] (files : Files m) (path : String) :
    m (Except FileError String) := do
  match ← files.read path with
  | .error e => return .error e
  | .ok bytes =>
    match String.fromUTF8? bytes with
    | some text => return .ok text
    | none => return .error .notUtf8

/-! ## A disk as a value -/

/-- What can stand at a place of a disk. -/
inductive Entry where
  | file (bytes : ByteArray)
  | directory

/-- A disk: what stands at each place, named from the root, and the place where relative paths
start. A directory that holds something need not be listed. -/
structure Disk where
  entries : List (List String × Entry)
  here : List String

namespace Disk

/-- What stands at a place. -/
def entry? (disk : Disk) (place : List String) : Option Entry :=
  match disk.entries.find? (·.1 = place) with
  | some (_, entry) => some entry
  | none =>
    if place.isPrefixOf disk.here || disk.entries.any (place.isPrefixOf ·.1) then some .directory
    else none

/-- Where a path leads. -/
inductive Target where
  | found (place : List String) (entry : Entry)
  /-- Only the last part of the path is missing. -/
  | absent (place : List String)

/-- The way from a place along the parts of a path. -/
def walk (disk : Disk) (place : List String) : List String → Except FileError Target
  | [] =>
    match disk.entry? place with
    | some entry => .ok (.found place entry)
    | none => .ok (.absent place)
  | part :: parts =>
    match disk.entry? place with
    | none => .error .notFound
    | some (.file _) => .error .notDirectory
    | some .directory =>
      if part = "." then disk.walk place parts
      else if part = ".." then disk.walk place.dropLast parts
      else if 255 < part.utf8ByteSize then .error .nameTooLong
      else disk.walk (place ++ [part]) parts

/-- A path that leads into a directory by its last slash. -/
def endsInSlash (path : String) : Bool :=
  path.toList.getLast? = some '/'

/-- Where a path leads, if its form allows it to be walked. -/
def target (disk : Disk) (path : String) : Except FileError Target :=
  let cs := path.toList
  if cs.contains '\x00' then .error .nulInName
  else if cs.isEmpty then .error .notFound
  else if 4095 < path.utf8ByteSize then .error .nameTooLong
  else
    disk.walk (if cs.head? = some '/' then [] else disk.here)
      (((Path.split cs).filter (· ≠ [])).map String.ofList)

/-- The content of a file. -/
def read (disk : Disk) (path : String) : Except FileError ByteArray := do
  match ← disk.target path with
  | .absent _ => .error .notFound
  | .found _ .directory => .error .isDirectory
  | .found _ (.file bytes) => if endsInSlash path then .error .notDirectory else .ok bytes

/-- Whether there is a file at a path. -/
def isFile (disk : Disk) (path : String) : Bool :=
  match disk.read path with
  | .ok _ => true
  | .error _ => false

/-- The disk with a file put at a place. -/
def put (disk : Disk) (place : List String) (bytes : ByteArray) : Disk :=
  { disk with entries := (place, .file bytes) :: disk.entries.filter (·.1 ≠ place) }

/-- The disk after a file has been made or replaced. -/
def write (disk : Disk) (path : String) (bytes : ByteArray) : Except FileError Disk := do
  match ← disk.target path with
  | .found _ .directory => .error .isDirectory
  | .found place (.file _) =>
    if endsInSlash path then .error .isDirectory else .ok (disk.put place bytes)
  | .absent place => if endsInSlash path then .error .isDirectory else .ok (disk.put place bytes)

/-- Access to a disk that is kept as a value. -/
def files : Files (StateM Disk) where
  read path := return (← get).read path
  isFile path := return (← get).isFile path
  write path bytes := do
    match (← get).write path bytes with
    | .error e => return .error e
    | .ok disk =>
      set disk
      return .ok ()
  here := return "/" ++ "/".intercalate (← get).here

end Disk

end Keybind
