import Keybind.Text.Printable

/-!
# Quoted literals

A text between double quotes, with a backslash form for every character that
could not be told from its surroundings otherwise.
-/

namespace Keybind.Text

/-- The short escape of a character that has one. -/
def shortEscape? (c : Char) : Option Char :=
  match c with
  | '"' => some '"'
  | '\\' => some '\\'
  | '\t' => some 't'
  | '\r' => some 'r'
  | '\n' => some 'n'
  | '\x00' => some '0'
  | _ => none

/-- One character inside a quoted literal. -/
def quoteChar (c : Char) : List Char :=
  match shortEscape? c with
  | some e => ['\\', e]
  | none =>
    if isPrintable c then [c]
    else ['\\', 'u', '\x7b'] ++ Nat.toDigits 16 c.toNat ++ ['\x7d']

/-- The quoted literal of a text. -/
def quoted (cs : List Char) : List Char :=
  '"' :: cs.flatMap quoteChar ++ ['"']

/-- The quoted literal of a string. -/
def quote (s : String) : String :=
  String.ofList (quoted s.toList)

end Keybind.Text
