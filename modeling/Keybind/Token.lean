/-!
# Tokens

The smallest units of a source. A token grows as long as the next character
extends it, so every token is as long as it can be.
-/

namespace Keybind

/-- The kinds of token. -/
inductive Token where
  | newline
  | whitespace
  | doubleDash
  | dash
  | openBracket
  | closeBracket
  | equals
  | arrow
  | openBrace
  | closeBrace
  | doubleQuote
  | singleQuote
  | backslash
  | text
  deriving DecidableEq, Repr, Inhabited

namespace Token

/-- The kind of token that a character starts. -/
def start (c : Char) : Token :=
  match c with
  | '\n' => newline
  | ' ' | '\t' | '\r' | '\x0c' => whitespace
  | '-' => dash
  | '[' => openBracket
  | ']' => closeBracket
  | '=' => equals
  | '{' => openBrace
  | '}' => closeBrace
  | '"' => doubleQuote
  | '\x27' => singleQuote
  | '\\' => backslash
  | _ => text

/-- The kind of a token once the character is added to it, if it can be. -/
def extend? (t : Token) (c : Char) : Option Token :=
  match t with
  | whitespace => if start c = whitespace then some whitespace else none
  | text => if start c = text then some text else none
  | dash => if c = '-' then some doubleDash else none
  | equals => if c = '>' then some arrow else none
  | _ => none

/-- The tokens of the rest of a source, after a token `t` whose characters so far are `read`,
last one first. -/
def splitFrom (t : Token) (read : List Char) : List Char → List (Token × List Char)
  | [] => [(t, read.reverse)]
  | c :: cs =>
    match t.extend? c with
    | some t' => splitFrom t' (c :: read) cs
    | none => (t, read.reverse) :: splitFrom (start c) [c] cs

/-- The tokens of a source with their texts. -/
def split : List Char → List (Token × List Char)
  | [] => []
  | c :: cs => splitFrom (start c) [c] cs

end Token

end Keybind
