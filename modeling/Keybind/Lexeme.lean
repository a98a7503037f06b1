import Keybind.Text.Basic
import Keybind.Token

/-!
# Lexemes

A lexeme is a stretch of the source that has been given a kind: it knows where
it stands and what it says. Tokens and segments are both lexemes.
-/

namespace Keybind

/-- A range of byte offsets. -/
structure Span where
  start : Nat
  stop : Nat
  deriving DecidableEq, Repr, Inhabited

namespace Span

/-- The span from the start of `first` to the end of `last`. -/
def through (first last : Span) : Span :=
  ⟨first.start, last.stop⟩

/-- The characters of a text within the span. -/
def slice (span : Span) (cs : List Char) : List Char :=
  Text.takeBytes (span.stop - span.start) (Text.dropBytes span.start cs)

end Span

/-- A stretch of the source of a known kind. -/
structure Lexeme (κ : Type) where
  kind : κ
  span : Span
  text : List Char
  deriving DecidableEq, Repr

namespace Lexeme

/-- Texts laid out one after the other from a byte offset on. -/
def layOut {κ : Type} (offset : Nat) : List (κ × List Char) → List (Lexeme κ)
  | [] => []
  | (kind, text) :: rest =>
    let stop := offset + Text.byteSize text
    ⟨kind, ⟨offset, stop⟩, text⟩ :: layOut stop rest

/-- One lexeme made of a run of lexemes: it starts where the first does, ends where the last does,
and says what they all say. -/
def join {κ ι : Type} (kind : ι) (first : Lexeme κ) (rest : List (Lexeme κ)) : Lexeme ι where
  kind := kind
  span := first.span.through ((first :: rest).getLast (List.cons_ne_nil _ _)).span
  text := (first :: rest).flatMap (·.text)

end Lexeme

/-- The tokens of a source. -/
def tokenize (cs : List Char) : List (Lexeme Token) :=
  Lexeme.layOut 0 (Token.split cs)

end Keybind
