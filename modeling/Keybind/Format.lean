/-!
# Output formats

What a script can be turned into.
-/

namespace Keybind

/-- The forms in which a script can be shown. -/
inductive Format where
  | lua
  | segments
  | segmentsJson
  deriving DecidableEq, Repr, Inhabited

namespace Format

/-- All formats, in the order in which they are listed. -/
def all : List Format :=
  [lua, segments, segmentsJson]

/-- The name by which a format is chosen. -/
def name : Format → String
  | lua => "lua"
  | segments => "segments"
  | segmentsJson => "segments-json"

/-- What a format shows. -/
def description : Format → String
  | lua => "Transpiled Lua source"
  | segments => "Lexer segments, one per line"
  | segmentsJson => "Lexer segments as JSON"

/-- The format of a name. -/
def ofName? (s : String) : Option Format :=
  all.find? (·.name = s)

/-- The names of all formats in one line. -/
def names : String :=
  ", ".intercalate (all.map name)

end Format

end Keybind
