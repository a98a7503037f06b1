import Keybind.Disk
import Keybind.Format
import Keybind.Options
import Keybind.Settings

/-!
# Configuration

The settings of a run, read from a tree of values. A section is a table of its
fields or an array of them in order. Values are read generously: a text may be
given as a number, a truth value as a word.
-/

namespace Keybind

/-- The settings of a run. -/
structure Config where
  options : Options := {}
  format : Format := .lua
  /-- Which events are logged. -/
  filter : String := "warn"
  deriving DecidableEq, Repr, Inhabited

/-- The parts of a configuration. -/
inductive ConfigSection where
  | transpile
  | output
  | log
  deriving DecidableEq, Repr

namespace ConfigSection

/-- The key of a section. -/
def key : ConfigSection → String
  | transpile => "transpile"
  | output => "output"
  | log => "log"

/-- The section as complaints name it. -/
def label : ConfigSection → String
  | transpile => "TranspileOptions"
  | output => "OutputConfig"
  | log => "LogConfig"

end ConfigSection

/-- Why there is no configuration. -/
inductive ConfigError where
  /-- A setting has a value of the wrong type; the file is named that the value comes from. -/
  | wrongType (found expected key : String) (origin : Option String)
  /-- A section is neither a table nor an array. -/
  | wrongSection (found : String) (part : ConfigSection)
  /-- A section that needs its one field is an empty array. -/
  | emptySection (part : ConfigSection)
  | missingField (name : String)
  | unknownFormat (name : String)
  /-- The format is neither a name nor a table with one name. -/
  | wrongFormat
  | fileNotFound (path : String)
  | fileUnreadable (error : FileError)
  | malformedFile
  | malformedKey
  deriving DecidableEq, Repr

/-- The error in words. -/
def ConfigError.message : ConfigError → String
  | wrongType found expected key origin =>
    "invalid type: " ++ found ++ ", expected " ++ expected ++ " for key `" ++ key ++ "`"
      ++ match origin with
        | some file => " in " ++ file
        | none => ""
  | wrongSection found part => "invalid type: " ++ found ++ ", expected struct " ++ part.label
  | emptySection part =>
    "invalid length 0, expected struct " ++ part.label ++ " with 1 element"
  | missingField name => "missing field `" ++ name ++ "`"
  | unknownFormat name => "enum OutputFormat does not have variant constructor " ++ name
  | wrongFormat =>
    "value of enum OutputFormat should be represented by either string or table "
      ++ "with exactly one key"
  | fileNotFound path => "configuration file \"" ++ path ++ "\" not found"
  | fileUnreadable error => error.message
  | malformedFile => "TOML parse error"
  | malformedKey => "malformed key"

namespace Config

/-! ## Fields -/

/-- A text; truth values and numbers are taken as they are written. -/
def readText (key : String) : Value → Except ConfigError String
  | .scalar _ (.text s) => .ok s
  | .scalar _ (.bool b) => .ok (if b then "true" else "false")
  | .scalar _ (.int n) => .ok (toString n)
  | .scalar _ (.real x) => .ok x.text
  | value => .error (.wrongType (value.describe "unit value") "a string" key value.origin)

/-- The words for true. -/
def trueWords : List String :=
  ["1", "true", "on", "yes"]

/-- The words for false. -/
def falseWords : List String :=
  ["0", "false", "off", "no"]

/-- A truth value; a number is true unless it is zero. -/
def readBool (key : String) : Value → Except ConfigError Bool
  | .scalar _ (.bool b) => .ok b
  | .scalar _ (.int n) => .ok (n ≠ 0)
  | .scalar _ (.real x) => .ok !x.isZero
  | .scalar origin (.text s) =>
    let word := Text.lower s
    if word ∈ trueWords then .ok true
    else if word ∈ falseWords then .ok false
    else .error (.wrongType ("string " ++ Text.quote word) "a boolean" key origin)
  | value => .error (.wrongType (value.describe "unit value") "a boolean" key value.origin)

/-- The format of a name in any letter case. -/
def formatOfName (name : String) : Except ConfigError Format :=
  match Format.all.find? fun format => Text.lower format.name = Text.lower name with
  | some format => .ok format
  | none => .error (.unknownFormat name)

/-- A format: its name, or a table whose one key is the name. -/
def readFormat : Value → Except ConfigError Format
  | .scalar _ (.text s) => formatOfName s
  | .table _ [(key, _)] => formatOfName key
  | _ => .error .wrongFormat

/-- A field that may be left out. -/
def orDefault {α : Type} (default : α) (read : Value → Except ConfigError α) :
    Option Value → Except ConfigError α
  | none => .ok default
  | some value => read value

/-! ## Sections -/

/-- The field of a section: the name or place under which it is given, and its value if there is
one. -/
structure FieldValue where
  key : String
  value? : Option Value

/-- The fields of a section in order, given their names. -/
def fields (part : ConfigSection) (names : List String) : Value → Except ConfigError (List FieldValue)
  | .table _ entries =>
    .ok (names.map fun name => ⟨part.key ++ "." ++ name, entries.lookup name⟩)
  | .array _ items =>
    .ok (names.mapIdx fun i _ => ⟨part.key ++ "[" ++ toString i ++ "]", items[i]?⟩)
  | value => .error (.wrongSection (value.describe "unit value") part)

/-- The options of a configuration. -/
def readOptions (value : Value) : Except ConfigError Options := do
  let default : Options := {}
  match ← fields .transpile ["match_table", "scope_constructor", "reject_unterminated"] value with
  | [table, constructor, reject] =>
    return {
      matchTable := ← orDefault default.matchTable (readText table.key) table.value?
      scopeConstructor :=
        ← orDefault default.scopeConstructor (readText constructor.key) constructor.value?
      rejectUnterminated :=
        ← orDefault default.rejectUnterminated (readBool reject.key) reject.value? }
  | _ => return default

/-- A section with one field, which it has to have. -/
def readSingle {α : Type} (part : ConfigSection) (name : String)
    (read : String → Value → Except ConfigError α) (value : Value) : Except ConfigError α := do
  match value, ← fields part [name] value with
  | _, [⟨key, some field⟩] => read key field
  | .array _ _, _ => .error (.emptySection part)
  | _, _ => .error (.missingField name)

/-- A section of the settings. -/
def readSection {α : Type} (settings : Value) (part : ConfigSection)
    (read : Value → Except ConfigError α) : Except ConfigError α :=
  match settings.asTable.2.lookup part.key with
  | some value => read value
  | none => .error (.missingField part.key)

/-- The configuration of a tree of settings. -/
def ofSettings (settings : Value) : Except ConfigError Config := do
  return {
    options := ← readSection settings .transpile readOptions
    format := ← readSection settings .output (readSingle .output "format" fun _ => readFormat)
    filter := ← readSection settings .log (readSingle .log "filter" readText) }

/-- A configuration as a tree of settings. -/
def toSettings (config : Config) : Value :=
  let text (s : String) : Value := .scalar none (.text s)
  .table none [
    ("transpile", .table none [
      ("match_table", text config.options.matchTable),
      ("scope_constructor", text config.options.scopeConstructor),
      ("reject_unterminated", .scalar none (.bool config.options.rejectUnterminated))]),
    ("output", .table none [("format", text config.format.name)]),
    ("log", .table none [("filter", text config.filter)])]

end Config

end Keybind
