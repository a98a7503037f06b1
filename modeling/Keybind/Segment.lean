import Keybind.Lexeme

/-!
# Segments

A segment is the unit the emitter works on: a delimiter of a long bracket, a
whole quoted string, the mark of a line comment, a brace, an arrow, or a run of
anything else.
-/

namespace Keybind

/-- A long bracket, of a comment or of a string; its level is the number of equals signs. -/
structure LongBracket where
  comment : Bool
  level : Nat
  deriving DecidableEq, Repr, Inhabited

namespace LongBracket

/-- The bracket written with one kind of square bracket. -/
def spell (bracket : LongBracket) (square : Char) : String :=
  String.ofList ((if bracket.comment then ['-', '-'] else [])
    ++ square :: List.replicate bracket.level '=' ++ [square])

/-- How the bracket is opened. -/
def opener (bracket : LongBracket) : String :=
  bracket.spell '['

/-- How the bracket is closed. -/
def closer (bracket : LongBracket) : String :=
  bracket.spell ']'

end LongBracket

/-- The two marks that enclose a quoted string. -/
inductive QuoteMark where
  | double
  | single
  deriving DecidableEq, Repr, Inhabited

/-- The character of a quotation mark. -/
def QuoteMark.char : QuoteMark → Char
  | double => '"'
  | single => '\x27'

/-- The kinds of segment. -/
inductive SegmentKind where
  | lineBreak
  | whitespace
  | text
  | arrow
  | openBrace
  | closeBrace
  | lineComment
  | longOpen (bracket : LongBracket)
  | longClose (bracket : LongBracket)
  | quoted (mark : QuoteMark)
  deriving DecidableEq, Repr, Inhabited

/-- The kind as a listing names it. -/
def SegmentKind.label : SegmentKind → String
  | lineBreak => "LineBreak"
  | whitespace => "Whitespace"
  | text => "Text"
  | arrow => "Arrow"
  | openBrace => "OpenBrace"
  | closeBrace => "CloseBrace"
  | lineComment => "LineComment"
  | longOpen bracket => "LongOpen(" ++ bracket.opener ++ ")"
  | longClose bracket => "LongClose(" ++ bracket.closer ++ ")"
  | quoted mark => "Quoted(" ++ String.singleton mark.char ++ ")"

/-- A stretch of the source with the kind of a segment. -/
abbrev Segment := Lexeme SegmentKind

end Keybind
