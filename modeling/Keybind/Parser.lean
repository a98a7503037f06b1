/-!
# Parsers

A parser takes characters from the front of a text, or refuses. A choice takes
the first parser that does not refuse.
-/

namespace Keybind

/-- Something read from the front of a text. -/
abbrev Parser (α : Type) := StateT (List Char) Option α

namespace Parser

variable {α β : Type}

/-- One character of a class. -/
def char (accept : Char → Bool) : Parser Char
  | c :: cs => if accept c then some (c, cs) else none
  | [] => none

/-- One given character. -/
def only (c : Char) : Parser Char :=
  char (· = c)

/-- A given word. -/
def word : List Char → Parser Unit
  | [] => pure ()
  | c :: cs => do
    let _ ← only c
    word cs

/-- The longest run of characters of a class. -/
def takeWhile (accept : Char → Bool) : Parser (List Char) :=
  fun cs => some (cs.takeWhile accept, cs.dropWhile accept)

/-- At most `n` items. -/
def atMost (p : Parser α) : Nat → Parser (List α)
  | 0 => pure []
  | n + 1 => (do
      let item ← p
      let items ← atMost p n
      return item :: items) <|> pure []

/-- As many items as there are. No item is empty, so there are no more than characters. -/
def many (p : Parser α) : Parser (List α) :=
  fun cs => atMost p cs.length cs

/-- As many items as there are, with a separator between any two. -/
def separated (p : Parser α) (separator : Parser β) : Parser (List α) :=
  (do
    let item ← p
    let items ← many (separator *> p)
    return item :: items) <|> pure []

/-- The end of the text. -/
def atEnd : Parser Unit
  | [] => some ((), [])
  | _ => none

end Parser

end Keybind
