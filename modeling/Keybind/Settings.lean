import Keybind.Settings.KeyPath
import Keybind.Text.Case
import Keybind.Value

/-!
# Settings

Settings are kept as one tree of tables, on which others are laid. A table is
laid on another key by key, anything else replaces what was there. Keys are
compared in lower case.
-/

namespace Keybind

/-- The entries with the value of a key edited; `missing` stands for one that is not there. -/
def editEntry (key : String) (missing : Value) (edit : Value → Value)
    (entries : List (String × Value)) : List (String × Value) :=
  if entries.any (·.1 = key) then
    entries.map fun entry => if entry.1 = key then (key, edit entry.2) else entry
  else entries ++ [(key, edit missing)]

namespace Value

/-- The value as a table: anything else gives way to an empty one. -/
def asTable : Value → Option String × List (String × Value)
  | table origin entries => (origin, entries)
  | _ => (none, [])

/-- The value as an array: anything else gives way to an empty one. -/
def asArray : Value → Option String × List Value
  | array origin items => (origin, items)
  | _ => (none, [])

/-- The table with the value of a key edited. -/
def editKey (value : Value) (key : String) (missing : Value) (edit : Value → Value) : Value :=
  let (origin, entries) := value.asTable
  table origin (editEntry (Text.lower key) missing edit entries)

/-- The array with one of its items edited; it grows as far as needed. -/
def editIndex (value : Value) (i : Int) (edit : Value → Value) : Value :=
  let (origin, items) := value.asArray
  let n := (if i < 0 then items.length + i else i).toNat
  let items := items ++ List.replicate (n + 1 - items.length) nil
  array origin (items.modify n edit)

mutual

/-- The table with a value laid on one of its keys. An empty table changes nothing. -/
def layKey (key : String) : Value → Value → Value
  | table _ entries, target => target.editKey key (table none []) (layEntries entries)
  | scalar origin s, target => target.editKey key nil fun _ => scalar origin s
  | array origin items, target => target.editKey key nil fun _ => array origin items

/-- A table laid on another, key by key. -/
def layEntries : List (String × Value) → Value → Value
  | [], target => target
  | (key, value) :: entries, target => layEntries entries (layKey key value target)

end

/-- The settings with a value laid at the end of a path. What stands in the way gives way. -/
def lay (value : Value) : KeyPath → Value → Value
  | [], _ => value
  | [.key name], target => layKey name value target
  | [.index i], target => target.editIndex i fun _ => value
  | .key name :: steps, target => target.editKey name nil (lay value steps)
  | .index i :: steps, target => target.editIndex i (lay value steps)

/-- The settings with the entry of a file laid on them. A key that spells a path is one. -/
def layEntry (settings : Value) (entry : String × Value) : Value :=
  match KeyPath.parse? entry.1 with
  | some path => lay entry.2 path settings
  | none => layKey entry.1 entry.2 settings

/-- The settings with all entries of a file laid on them. -/
def layFile (settings : Value) (entries : List (String × Value)) : Value :=
  entries.foldl layEntry settings

end Value

end Keybind
