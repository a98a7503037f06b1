import Keybind.Location
import Keybind.Segment

/-!
# Faults

The four ways in which a script can fail to become Lua. While it is being
worked on, the place of a fault is a byte offset; a reader is shown a line and a
column.
-/

namespace Keybind

/-- What is wrong with a script, and where. -/
inductive Fault (π : Type) where
  /-- A closing brace without an opening one. -/
  | unbalancedClose (place : π)
  /-- An opening brace that is never closed. -/
  | unbalancedOpen (place : π)
  /-- A closer of a long bracket that does not fit the innermost opener, if there is one. -/
  | mismatchedLongBracket (place : π) (opened : Option LongBracket) (found : LongBracket)
  /-- A long bracket that is never closed. -/
  | unterminatedLongBracket (place : π) (opened : LongBracket)
  deriving DecidableEq, Repr

/-- A fault with its place as a line and a column. -/
abbrev TranspileError := Fault Location

namespace Fault

variable {π ρ : Type}

/-- The place of the fault. -/
def place : Fault π → π
  | unbalancedClose place => place
  | unbalancedOpen place => place
  | mismatchedLongBracket place _ _ => place
  | unterminatedLongBracket place _ => place

/-- The same fault with its place seen in another way. -/
def map (f : π → ρ) : Fault π → Fault ρ
  | unbalancedClose place => unbalancedClose (f place)
  | unbalancedOpen place => unbalancedOpen (f place)
  | mismatchedLongBracket place opened found => mismatchedLongBracket (f place) opened found
  | unterminatedLongBracket place opened => unterminatedLongBracket (f place) opened

/-- The fault with its byte offset read as a place of the source. -/
def locate (cs : List Char) (fault : Fault Nat) : TranspileError :=
  fault.map (Location.ofOffset cs)

/-- The fault in words. -/
def message : TranspileError → String
  | unbalancedClose place => "too many closing braces: `\x7d` at " ++ place.describe
  | unbalancedOpen place => "unclosed `\x7b` opened at " ++ place.describe
  | mismatchedLongBracket place opened found =>
    "mismatched long comment/string: `" ++ found.closer ++ "` at " ++ place.describe
      ++ match opened with
        | some bracket => " does not close `" ++ bracket.opener ++ "`"
        | none => " closes nothing"
  | unterminatedLongBracket place opened =>
    "unterminated long comment/string: `" ++ opened.opener ++ "` opened at " ++ place.describe
      ++ " is never closed"

end Fault

end Keybind
