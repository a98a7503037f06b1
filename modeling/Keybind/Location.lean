import Keybind.Text.Basic

/-!
# Locations

Lines and columns of a source, both counted from one. Only a newline ends a
line, and a column is a number of characters.
-/

namespace Keybind

/-- A place in a source. -/
structure Location where
  line : Nat
  column : Nat
  deriving DecidableEq, Repr, Inhabited

namespace Location

/-- The place of the first character. -/
def start : Location :=
  ⟨1, 1⟩

/-- The place after a character. -/
def advance (place : Location) (c : Char) : Location :=
  if c = '\n' then ⟨place.line + 1, 1⟩ else ⟨place.line, place.column + 1⟩

/-- The place of a byte offset. One past the end counts as the end, and one inside a character as
that character's start. -/
def ofOffset (cs : List Char) (offset : Nat) : Location :=
  (Text.takeBytes offset cs).foldl advance start

/-- The place in words. -/
def describe (place : Location) : String :=
  "line " ++ toString place.line ++ ", column " ++ toString place.column

end Location

end Keybind
