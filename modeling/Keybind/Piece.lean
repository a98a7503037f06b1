/-!
# Pieces

The output is put together from pieces. Line breaks are kept apart so that the
start of the current line can be found again.
-/

namespace Keybind

/-- A piece of output. -/
inductive Piece where
  /-- A newline of the source. -/
  | lineBreak (text : List Char)
  /-- Other text of the source. -/
  | source (text : List Char)
  /-- Text that does not come from the source. -/
  | generated (text : List Char)
  deriving DecidableEq, Repr

namespace Piece

/-- What the piece says. -/
def text : Piece → List Char
  | lineBreak text => text
  | source text => text
  | generated text => text

/-- Whether the piece ends a line. -/
def isLineBreak : Piece → Bool
  | lineBreak _ => true
  | _ => false

/-- The text of all pieces in order. -/
def assemble (pieces : List Piece) : List Char :=
  pieces.flatMap text

end Piece

end Keybind
