import Keybind.Emitter
import Keybind.Script.Path
import Keybind.Text.Quoted

/-!
# Events

What a run reports while it works. Every event has a level, a target, which is the
part of the program that it comes from, a message and a few named fields.
-/

namespace Keybind

/-- How much an event matters, the weightiest first. -/
inductive Level where
  | error
  | warn
  | info
  | debug
  | trace
  deriving DecidableEq, Repr, Inhabited

namespace Level

/-- The level as it stands in front of a message. -/
def label : Level → String
  | error => "ERROR"
  | warn => "WARN"
  | info => "INFO"
  | debug => "DEBUG"
  | trace => "TRACE"

/-- The number of levels from the weightiest down to this one. -/
def rank : Level → Nat
  | error => 1
  | warn => 2
  | info => 3
  | debug => 4
  | trace => 5

end Level

/-- A value reported with an event. -/
inductive Field where
  | count (n : Nat)
  | word (s : String)
  /-- A text that a log line shows between quotation marks. -/
  | phrase (s : String)
  deriving DecidableEq, Repr

/-- The field as a log line shows it. -/
def Field.render : Field → String
  | count n => toString n
  | word s => s
  | phrase s => Text.quote s

/-- What a run reports. -/
inductive Event where
  /-- The file has a name that the daemon does not load. -/
  | refused (path : String)
  | loaded (name : String) (kind : ScriptKind)
  | lexed (bytes segments : Nat)
  | emitted (event : EmitEvent)
  | assembled (pieces bytes : Nat)
  deriving DecidableEq, Repr

namespace Event

/-- The level of an event. -/
def level : Event → Level
  | refused _ => .warn
  | loaded _ _ => .debug
  | lexed _ _ => .debug
  | emitted _ => .trace
  | assembled _ _ => .debug

/-- The part of the program that an event comes from. -/
def target : Event → String
  | refused _ | loaded _ _ => "hwk2lua::hwk::script"
  | lexed _ _ | assembled _ _ => "hwk2lua::hwk"
  | emitted _ => "hwk2lua::hwk::rewriting"

/-- The message of an event. -/
def message : Event → String
  | refused _ =>
    "the macro daemon will not load this file: names must end in .lua or .hwk "
      ++ "and may not start with a '.'"
  | loaded _ _ => "loaded script"
  | lexed _ _ => "lexed hwk source"
  | emitted (.matched _) => "rewrote match"
  | emitted (.opened _ _) => "opened scope"
  | emitted (.closed _ _) => "closed scope"
  | assembled _ _ => "assembled lua"

/-- The fields of an event in the order in which they are shown. -/
def fields : Event → List (String × Field)
  | refused path => [("path", .word path)]
  | loaded name kind => [("name", .word name), ("kind", .word kind.label)]
  | lexed bytes segments => [("bytes", .count bytes), ("segments", .count segments)]
  | emitted (.matched pattern) => [("pattern", .phrase (String.ofList pattern))]
  | emitted (.opened depth kind) => [("depth", .count depth), ("kind", .word kind.label)]
  | emitted (.closed depth kind) => [("depth", .count depth), ("kind", .word kind.label)]
  | assembled pieces bytes => [("pieces", .count pieces), ("bytes", .count bytes)]

/-- The names of the fields of an event, of which the message is one. -/
def fieldNames (event : Event) : List String :=
  "message" :: event.fields.map (·.1)

/-- The log line of an event. -/
def line (event : Event) : String :=
  event.fields.foldl (fun line (name, field) => line ++ " " ++ name ++ "=" ++ field.render)
    (event.level.label ++ " " ++ event.message)

end Event

end Keybind
