/-!
# Options

The names that the produced Lua uses, and how strictly the end of a script is
checked.
-/

namespace Keybind

/-- How scripts are turned into Lua. -/
structure Options where
  /-- The table that patterns are assigned to, also the parameter of every scope. -/
  matchTable : String := "__match"
  /-- The function that wraps the body of a scope. -/
  scopeConstructor : String := "MatchScope.new"
  /-- Whether a long bracket that is never closed is a fault. -/
  rejectUnterminated : Bool := true
  deriving DecidableEq, Repr, Inhabited

namespace Options

/-- The left-hand side that replaces a pattern and its arrow. -/
def assignment (options : Options) (indent pattern : List Char) : List Char :=
  indent ++ options.matchTable.toList ++ ['['] ++ pattern ++ "] =".toList

/-- What replaces the opening brace of a match scope. -/
def scopeOpen (options : Options) : List Char :=
  options.scopeConstructor.toList ++ "(function (".toList ++ options.matchTable.toList ++ [')']

/-- What replaces the closing brace of a match scope. -/
def scopeClose : List Char :=
  "end)".toList

end Options

end Keybind
