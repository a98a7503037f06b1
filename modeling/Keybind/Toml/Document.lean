import Keybind.Toml.Grammar

/-!
# TOML documents

A document is a list of statements, each of which adds to a tree of tables. A
key can be given once. A table can be opened by one header, and what a dotted
key has made is not opened by a header, nor the other way round.
-/

namespace Keybind.Toml

open Keybind.Parser

/-! ## The tree -/

/-- How a table has come about. -/
inductive Making where
  /-- By a header of its own. -/
  | header
  /-- By the header of a table within it. -/
  | implied
  /-- By a dotted key. -/
  | dotted
  deriving DecidableEq, Repr

/-- What a key stands for while a document is read. -/
inductive Node where
  | value (value : Value)
  | table (making : Making) (entries : List (String × Node))
  /-- An array of tables, the last one first. -/
  | tables (items : List (List (String × Node)))

/-- The entries of a table. -/
abbrev Entries := List (String × Node)

namespace Entries

/-- The entries with the node of a key replaced, or added if there is none. -/
def put (entries : Entries) (key : String) (node : Node) : Entries :=
  if entries.any (·.1 = key) then
    entries.map fun entry => if entry.1 = key then (key, node) else entry
  else entries ++ [(key, node)]

/-- The entries with a value added under a dotted key. -/
def assign (value : Value) : List String → Entries → Option Entries
  | [], _ => none
  | [key], entries =>
    match entries.lookup key with
    | some _ => none
    | none => some (entries.put key (.value value))
  | key :: last :: rest, entries => do
    let node ← match entries.lookup key with
      | none => return entries.put key (.table .dotted (← assign value (last :: rest) []))
      | some node => some node
    match node with
    | .table .dotted inner =>
      return entries.put key (.table .dotted (← assign value (last :: rest) inner))
    | .table .implied inner =>
      if rest.isEmpty then failure
      return entries.put key (.table .implied (← assign value (last :: rest) inner))
    | .tables (inner :: items) =>
      if rest.isEmpty then failure
      return entries.put key (.tables ((← assign value (last :: rest) inner) :: items))
    | _ => failure

/-- The entries with values added under dotted keys. -/
def assignAll (entries : Entries) (assignments : List (List String × Value)) : Option Entries :=
  assignments.foldlM (fun entries (path, value) => entries.assign value path) entries

/-- The entries with the table at the end of a path edited; tables on the way are made. -/
def within (edit : Entries → Option Entries) : List String → Entries → Option Entries
  | [], entries => edit entries
  | key :: rest, entries => do
    match entries.lookup key with
    | none => return entries.put key (.table .implied (← within edit rest []))
    | some (.table making inner) =>
      return entries.put key (.table making (← within edit rest inner))
    | some (.tables (inner :: items)) =>
      return entries.put key (.tables ((← within edit rest inner) :: items))
    | some _ => failure

/-- The entries with a table that has a header of its own. -/
def openTable (assignments : List (List String × Value)) (key : String) (entries : Entries) :
    Option Entries := do
  let inner ← match entries.lookup key with
    | none => some []
    | some (.table .implied inner) => some inner
    | some _ => none
  return entries.put key (.table .header (← assignAll inner assignments))

/-- The entries with a table added to an array of tables. -/
def openItem (assignments : List (List String × Value)) (key : String) (entries : Entries) :
    Option Entries := do
  let items ← match entries.lookup key with
    | none => some []
    | some (.tables items) => some items
    | some _ => none
  return entries.put key (.tables ((← assignAll [] assignments) :: items))

end Entries

mutual

/-- The value of a node that has been read from a file. -/
def Node.toValue (origin : Option String) : Node → Value
  | .value value => value
  | .table _ entries => .table origin (toValues origin entries)
  | .tables items => .array origin (toTables origin items).reverse

/-- The values of the entries of a table. -/
def toValues (origin : Option String) : List (String × Node) → List (String × Value)
  | [] => []
  | (key, node) :: entries => (key, node.toValue origin) :: toValues origin entries

/-- The values of the tables of an array. -/
def toTables (origin : Option String) : List (List (String × Node)) → List Value
  | [] => []
  | entries :: items => .table origin (toValues origin entries) :: toTables origin items

end

/-! ## Values -/

/-- A table within a line. -/
def inlineTable (origin : Option String) (value : Parser Value) : Parser Value := do
  let _ ← only '\x7b'
  let assignments ← separated (assignment value <* ws) (only ',')
  ws
  let _ ← only '\x7d'
  match Entries.assignAll [] assignments with
  | some entries => return .table origin (toValues origin entries)
  | none => failure

/-- A value in which containers may be nested to a depth. -/
def value (origin : Option String) : Nat → Parser Value
  | 0 => .scalar origin <$> scalar
  | depth + 1 =>
    .scalar origin <$> scalar
      <|> .array origin <$> array (value origin depth)
      <|> inlineTable origin (value origin depth)

/-! ## Statements -/

/-- A statement of a document. -/
inductive Statement where
  /-- An empty line or a comment. -/
  | blank
  | assign (path : List String) (value : Value)
  /-- The header of a table, or of an item of an array of tables, in the tables of `outer`. -/
  | header (item : Bool) (outer : List String) (key : String)

/-- A header between given marks. -/
def header (item : Bool) (opening closing : List Char) : Parser Statement := do
  word opening
  let path ← key
  word closing
  lineEnd
  match path.getLast? with
  | some last => return .header item path.dropLast last
  | none => failure

/-- A statement with the end of its line. -/
def statement (origin : Option String) : Parser Statement
  | '#' :: cs => (comment *> (newline <|> atEnd) *> pure .blank : Parser Statement) ('#' :: cs)
  | '[' :: '[' :: cs => header true ['[', '['] [']', ']'] ('[' :: '[' :: cs)
  | '[' :: cs => header false ['['] [']'] ('[' :: cs)
  | cs => (newline *> pure .blank <|> (do
      let (path, value) ← assignment (value origin (limit - 1))
      lineEnd
      return .assign path value) : Parser Statement) cs

/-- All statements of a text, which may start with a byte order mark. -/
def statements (origin : Option String) : Parser (List Statement) := do
  let _ ← optional (only '\ufeff')
  ws
  let statements ← many (statement origin <* ws)
  atEnd
  return statements

/-! ## Documents -/

/-- A header and the assignments below it. -/
structure Section where
  item : Bool
  outer : List String
  key : String
  assignments : List (List String × Value)

/-- The assignments before the first header, and what follows cut at its headers. -/
def sections : List Statement → List (List String × Value) × List Section
  | [] => ([], [])
  | .blank :: rest => sections rest
  | .assign path value :: rest =>
    let (top, others) := sections rest
    ((path, value) :: top, others)
  | .header item outer key :: rest =>
    let (top, others) := sections rest
    ([], ⟨item, outer, key, top⟩ :: others)

/-- The tree with a section added. -/
def Section.addTo (part : Section) (entries : Entries) : Option Entries :=
  entries.within
    (if part.item then Entries.openItem part.assignments part.key
      else Entries.openTable part.assignments part.key) part.outer

/-- The tree of a list of statements. -/
def build (statements : List Statement) : Option Entries := do
  let (top, others) := sections statements
  others.foldlM (fun entries part => part.addTo entries) (← Entries.assignAll [] top)

/-- The entries of a document, or nothing if it is not well-formed. -/
def read? (origin : Option String) (text : String) : Option (List (String × Value)) := do
  let (statements, _) ← statements origin text.toList
  return toValues origin (← build statements)

end Keybind.Toml
