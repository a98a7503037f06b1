import Keybind.Parser

/-!
# Paths of keys

A setting is named by the keys and indices that lead to it, as in
`output.format` or `transpile[2]`. A blank is a character of a key like any
other.
-/

namespace Keybind

/-- One step to a setting. -/
inductive Step where
  | key (name : String)
  /-- A place in an array, counted from the end if it is negative. -/
  | index (i : Int)
  deriving DecidableEq, Repr

/-- The steps to a setting; the first one is a key. -/
abbrev KeyPath := List Step

namespace KeyPath

open Keybind.Parser

/-- A character of a key. -/
def isKeyChar (c : Char) : Bool :=
  c.isAlphanum || c == ' ' || c == '_' || c == '-'

/-- A key. -/
def key : Parser Step := do
  let name ← takeWhile isKeyChar
  if name.isEmpty then failure else return .key (String.ofList name)

/-- A blank within an index. -/
def isGap (c : Char) : Bool :=
  c == ' ' || c == '\t'

/-- The digits of an index, as far as they fit into 64 bits. -/
def index : Parser Step := do
  let _ ← takeWhile isGap
  let negative := (← optional (only '-')).isSome
  let digits ← takeWhile Char.isDigit
  let _ ← takeWhile isGap
  if digits.isEmpty then failure
  let n : Int := digits.foldl (fun n c => 10 * n + (c.toNat - '0'.toNat)) 0
  let i := if negative then -n else n
  if -Int.pow 2 63 ≤ i ∧ i < Int.pow 2 63 then return .index i else failure

/-- A step after the first. -/
def step : Parser Step :=
  (only '.' *> key) <|> (only '[' *> index <* only ']')

/-- The path that a text spells. -/
def parse? (text : String) : Option KeyPath := do
  let (path, _) ← (do
    let first ← key
    let steps ← many step
    atEnd
    return first :: steps : Parser KeyPath) text.toList
  return path

end KeyPath

end Keybind
