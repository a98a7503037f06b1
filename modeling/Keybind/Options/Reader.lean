import Keybind.Options
import Keybind.Value

/-!
# Options from a value

Options are given as a table of the three fields, or as an array of them in
order. What is left out takes its default, and each field has to have exactly
the right type.
-/

namespace Keybind

/-- Why a value is no set of options. -/
inductive OptionsError where
  /-- The value has another type than the one that is expected. -/
  | wrongType (found : Value) (expected : String)
  /-- The array has too many items. -/
  | tooLong (length : Nat)

/-- The complaint in words. -/
def OptionsError.message : OptionsError → String
  | wrongType found expected =>
    "invalid type: " ++ found.describe "null" ++ ", expected " ++ expected
  | tooLong length =>
    "invalid length " ++ toString length ++ ", expected fewer elements in array"

namespace Options

/-- A string, or the default if there is none. -/
def readString (default : String) : Option Value → Except OptionsError String
  | none => .ok default
  | some (.scalar _ (.text s)) => .ok s
  | some value => .error (.wrongType value "a string")

/-- A boolean, or the default if there is none. -/
def readBool (default : Bool) : Option Value → Except OptionsError Bool
  | none => .ok default
  | some (.scalar _ (.bool b)) => .ok b
  | some value => .error (.wrongType value "a boolean")

/-- Options from a table; the fields are looked at in the order of their names. -/
def ofTable (entries : List (String × Value)) : Except OptionsError Options := do
  let default : Options := {}
  let matchTable ← readString default.matchTable (entries.lookup "match_table")
  let rejectUnterminated ←
    readBool default.rejectUnterminated (entries.lookup "reject_unterminated")
  let scopeConstructor ←
    readString default.scopeConstructor (entries.lookup "scope_constructor")
  return { matchTable, scopeConstructor, rejectUnterminated }

/-- Options from an array. -/
def ofArray (items : List Value) : Except OptionsError Options := do
  let default : Options := {}
  let matchTable ← readString default.matchTable items[0]?
  let scopeConstructor ← readString default.scopeConstructor items[1]?
  let rejectUnterminated ← readBool default.rejectUnterminated items[2]?
  if 3 < items.length then .error (.tooLong items.length)
  else return { matchTable, scopeConstructor, rejectUnterminated }

/-- Options from a value. -/
def ofValue : Value → Except OptionsError Options
  | .table _ entries => ofTable entries
  | .array _ items => ofArray items
  | value => .error (.wrongType value "struct TranspileOptions")

end Options

end Keybind
