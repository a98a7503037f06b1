import Keybind.Number.Binary64
import Keybind.Text.Quoted

/-!
# Values

Settings and options arrive as values of no fixed shape. A value remembers the
file that it was read from, so that a complaint about it can name the file.
-/

namespace Keybind

/-- A value that has no parts. -/
inductive Scalar where
  | nil
  | bool (b : Bool)
  | int (n : Int)
  | real (x : Binary64)
  | text (s : String)
  deriving DecidableEq, Repr, Inhabited

/-- A value, with the file it comes from if there is one. -/
inductive Value where
  | scalar (origin : Option String) (scalar : Scalar)
  | array (origin : Option String) (items : List Value)
  | table (origin : Option String) (entries : List (String × Value))

namespace Value

instance : Inhabited Value :=
  ⟨scalar none .nil⟩

/-- Nothing, from nowhere. -/
def nil : Value :=
  scalar none .nil

/-- The file that the value comes from. -/
def origin : Value → Option String
  | scalar origin _ => origin
  | array origin _ => origin
  | table origin _ => origin

/-- A value as complaints describe it; `missing` describes the absence of one. -/
def describe (missing : String) : Value → String
  | scalar _ .nil => missing
  | scalar _ (.bool b) => "boolean `" ++ (if b then "true" else "false") ++ "`"
  | scalar _ (.int n) => "integer `" ++ toString n ++ "`"
  | scalar _ (.real x) => "floating point `" ++ x.textWithPoint ++ "`"
  | scalar _ (.text s) => "string " ++ Text.quote s
  | array _ _ => "sequence"
  | table _ _ => "map"

end Value

end Keybind
