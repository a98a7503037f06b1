import Keybind.Config
import Keybind.Toml.Document

/-!
# Layers of configuration

A configuration starts from a file of defaults. Files are laid on it in order, and
single settings go on top of all files, wherever they stand in the list.
-/

namespace Keybind

/-- A layer of a configuration. -/
inductive Layer where
  /-- A file, which may be missing unless it is required. -/
  | file (path : String) (required : Bool)
  /-- A single setting. -/
  | setting (path : KeyPath) (value : Value)

namespace Layer

/-- A layer with a single setting, unless its key is malformed. -/
def ofKey (key : String) (value : Value) : Except ConfigError Layer :=
  match KeyPath.parse? key with
  | some path => .ok (setting path value)
  | none => .error .malformedKey

/-- The single setting of a layer. -/
def setting? : Layer → Option (KeyPath × Value)
  | setting path value => some (path, value)
  | file _ _ => none

/-- The file of a layer, and whether it is required. -/
def file? : Layer → Option (String × Bool)
  | file path required => some (path, required)
  | setting _ _ => none

end Layer

namespace ConfigFile

/-- The path with the extension of configuration files added to its file name, if it has one. -/
def withExtension (path : String) : Option String :=
  let parts := ((Path.split path.toList).reverse.dropWhile fun part => !Path.counts part).reverse
  match parts.getLast? with
  | none => none
  | some name =>
    if name = ['.', '.'] then none
    else some (String.ofList (['/'].intercalate parts ++ ".toml".toList))

/-- The path of a file as complaints show it: relative to the working directory, without parts
that do not count. -/
def shownPath (here path : String) : String :=
  let base := Path.parts here.toList
  let target :=
    if path.toList.head? = some '/' then Path.parts path.toList
    else base ++ Path.parts path.toList
  let common := commonLength base target
  "/".intercalate ((List.replicate (base.length - common) "..")
    ++ (target.drop common).map String.ofList)
where
  /-- The number of parts that two paths share from the start. -/
  commonLength : List (List Char) → List (List Char) → Nat
    | a :: as, b :: bs => if a = b then commonLength as bs + 1 else 0
    | _, _ => 0

variable {m : Type → Type} [Monad m]

/-- The path under which a configuration file is found: the one that is given, or else that one
with the extension added. -/
def find? (files : Files m) (path : String) : m (Option String) := do
  if ← files.isFile path then return some path
  match withExtension path with
  | none => return none
  | some path => if ← files.isFile path then return some path else return none

/-- The path and the text of a configuration file. -/
def fetch (files : Files m) (path : String) : m (Except ConfigError (String × String)) := do
  match ← find? files path with
  | none => return .error (.fileNotFound path)
  | some found =>
    match ← files.readText found with
    | .error e => return .error (.fileUnreadable e)
    | .ok text => return .ok (shownPath (← files.here) found, text)

/-- The entries of a configuration file. One that cannot be read has none, unless it is required. -/
def read (files : Files m) (path : String) (required : Bool) :
    m (Except ConfigError (List (String × Value))) := do
  match ← fetch files path with
  | .error e => return if required then .error e else .ok []
  | .ok (shown, text) =>
    match Toml.read? (some shown) text with
    | some entries => return .ok entries
    | none => return .error .malformedFile

/-- The entries of several configuration files, up to the first that fails. -/
def readAll (files : Files m) : List (String × Bool) →
    m (Except ConfigError (List (List (String × Value))))
  | [] => return .ok []
  | (path, required) :: rest => do
    match ← read files path required with
    | .error e => return .error e
    | .ok entries =>
      match ← readAll files rest with
      | .error e => return .error e
      | .ok others => return .ok (entries :: others)

end ConfigFile

namespace Config

/-- The lines of the file that all others are laid on. -/
def defaultLines : List String :=
  ["# Built-in defaults for hwk2lua. User files passed with --config are layered on top.\n",
   "\n",
   "[transpile]\n",
   "# Table the patterns are assigned into, also the parameter of every match scope.\n",
   "match_table = \"__match\"\n",
   "# Called with the closure that a `pattern => \x7b ... \x7d` block becomes.\n",
   "scope_constructor = \"MatchScope.new\"\n",
   "# End of input inside a long comment or string is an error.\n",
   "reject_unterminated = true\n",
   "\n",
   "[output]\n",
   "# lua | segments | segments-json\n",
   "format = \"lua\"\n",
   "\n",
   "[log]\n",
   "# Used when RUST_LOG is not set.\n",
   "filter = \"warn\"\n"]

/-- The text of that file. -/
def defaultText : String :=
  String.join defaultLines

/-- The settings of files, with single settings on top. -/
def settings (documents : List (List (String × Value))) (single : List (KeyPath × Value)) : Value :=
  single.foldl (fun settings (path, value) => value.lay path settings)
    (documents.foldl Value.layFile (.table none []))

/-- The configuration of a list of layers that are laid on a document, if there is one. -/
def loadOver {m : Type → Type} [Monad m] (files : Files m) (layers : List Layer) :
    Option (List (String × Value)) → m (Except ConfigError Config)
  | none => return .error .malformedFile
  | some defaults => do
    match ← ConfigFile.readAll files (layers.filterMap Layer.file?) with
    | .error e => return .error e
    | .ok documents =>
      return ofSettings (settings (defaults :: documents) (layers.filterMap Layer.setting?))

/-- The configuration of a list of layers. -/
def load {m : Type → Type} [Monad m] (files : Files m) (layers : List Layer) :
    m (Except ConfigError Config) :=
  loadOver files layers (Toml.read? none defaultText)

end Config

end Keybind
