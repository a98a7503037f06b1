/-!
# JSON

Values as they are written to a listing, and their indented text.
-/

namespace Keybind

/-- A JSON value; the only numbers are counts. -/
inductive Json where
  | bool (b : Bool)
  | number (n : Nat)
  | string (text : List Char)
  | array (items : List Json)
  | object (entries : List (String × Json))

namespace Json

/-- The letter of the short escape of a character that has one. -/
def shortEscape? (c : Char) : Option Char :=
  match c with
  | '"' => some '"'
  | '\\' => some '\\'
  | '\x08' => some 'b'
  | '\x0c' => some 'f'
  | '\n' => some 'n'
  | '\r' => some 'r'
  | '\t' => some 't'
  | _ => none

/-- One character inside a string. Only quotation marks, backslashes and controls are escaped. -/
def escape (c : Char) : List Char :=
  match shortEscape? c with
  | some letter => ['\\', letter]
  | none =>
    if c.toNat < 0x20 then
      ['\\', 'u', '0', '0', Nat.digitChar (c.toNat / 16), Nat.digitChar (c.toNat % 16)]
    else [c]

/-- A string with its quotation marks. -/
def quoted (text : List Char) : List Char :=
  '"' :: text.flatMap escape ++ ['"']

/-- A fresh line at a depth: every level is two spaces. -/
def freshLine (depth : Nat) : List Char :=
  '\n' :: List.replicate (2 * depth) ' '

mutual

/-- The indented text of a value at a depth. -/
def pretty (depth : Nat) : Json → List Char
  | bool b => (if b then "true" else "false").toList
  | number n => (toString n).toList
  | string text => quoted text
  | array [] => ['[', ']']
  | array (item :: items) =>
    '[' :: freshLine (depth + 1) ++ pretty (depth + 1) item ++ prettyItems depth items
      ++ freshLine depth ++ [']']
  | object [] => ['{', '}']
  | object ((key, value) :: entries) =>
    '{' :: freshLine (depth + 1) ++ quoted key.toList ++ [':', ' '] ++ pretty (depth + 1) value
      ++ prettyEntries depth entries ++ freshLine depth ++ ['}']

/-- The items of an array after the first. -/
def prettyItems (depth : Nat) : List Json → List Char
  | [] => []
  | item :: items =>
    ',' :: freshLine (depth + 1) ++ pretty (depth + 1) item ++ prettyItems depth items

/-- The entries of an object after the first. -/
def prettyEntries (depth : Nat) : List (String × Json) → List Char
  | [] => []
  | (key, value) :: entries =>
    ',' :: freshLine (depth + 1) ++ quoted key.toList ++ [':', ' '] ++ pretty (depth + 1) value
      ++ prettyEntries depth entries

end

/-- The indented text of a value. -/
def render (value : Json) : List Char :=
  value.pretty 0

end Json

end Keybind
