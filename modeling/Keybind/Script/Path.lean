/-!
# Paths of scripts

What a script is called and how it is treated follows from its path alone.
Empty parts of a path and parts that are a single dot do not count.
-/

namespace Keybind

namespace Path

/-- The parts of a path between slashes. -/
def split : List Char → List (List Char)
  | [] => [[]]
  | c :: cs =>
    match split cs with
    | part :: parts => if c = '/' then [] :: part :: parts else (c :: part) :: parts
    | [] => []

/-- Whether a part of a path counts. -/
def counts (part : List Char) : Bool :=
  part ≠ [] ∧ part ≠ ['.']

/-- The parts of a path that count. -/
def parts (path : List Char) : List (List Char) :=
  (split path).filter counts

/-- The last part of a path, unless it leads upwards. -/
def fileName? (path : List Char) : Option (List Char) :=
  match (parts path).getLast? with
  | none => none
  | some name => if name = ['.', '.'] then none else some name

/-- A file name cut at its last dot, unless that is its first character. -/
def splitName (name : List Char) : List Char × Option (List Char) :=
  let extension := (name.reverse.takeWhile (· ≠ '.')).reverse
  match (name.reverse.dropWhile (· ≠ '.')).reverse.dropLast with
  | [] => (name, none)
  | stem => (stem, some extension)

/-- The file name without its extension. -/
def stem? (path : List Char) : Option (List Char) :=
  (fileName? path).map fun name => (splitName name).1

/-- What follows the last dot of the file name. -/
def extension? (path : List Char) : Option (List Char) :=
  (fileName? path).bind fun name => (splitName name).2

end Path

/-- The languages a script can be written in. -/
inductive ScriptKind where
  | hwk
  | lua
  deriving DecidableEq, Repr, Inhabited

namespace ScriptKind

/-- The kind as events name it. -/
def label : ScriptKind → String
  | hwk => "Hwk"
  | lua => "Lua"

/-- A file with the extension `lua` is Lua, anything else is hwk. -/
def ofPath (path : List Char) : ScriptKind :=
  if Path.extension? path = some "lua".toList then lua else hwk

end ScriptKind

/-- Whether the daemon loads the file: it is not hidden, and ends as a script does. -/
def isLoadable (path : List Char) : Bool :=
  match Path.fileName? path with
  | none => false
  | some name =>
    name.head? != some '.' && (".lua".toList.isSuffixOf name || ".hwk".toList.isSuffixOf name)

/-- The name under which a script is known: its file name without the extension. -/
def scriptName (path : List Char) : List Char :=
  (Path.stem? path).getD []

end Keybind
