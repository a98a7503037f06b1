import Keybind.Event
import Keybind.Parser

/-!
# Logging

Which events are shown. A filter is a list of directives, written with commas
between them. A directive is the name of a level, or it is written
`target[span{field=value}]=level`, where each part may be left out: it sets the
level for the events that come from a part of the program, happen in a span and
have a field. Of the directives that are about an event the most specific one
decides.
-/

namespace Keybind

/-- The filter that a number of requests for more detail asks for. -/
def filterFor (configured : String) (verbosity : Nat) : String :=
  match verbosity with
  | 0 => configured
  | 1 => "debug"
  | _ => "trace"

/-- The words for a level, with the rank of the least weighty level that they show. -/
def levelWords : List (String × Nat) :=
  [("off", 0), ("error", 1), ("warn", 2), ("info", 3), ("debug", 4), ("trace", 5),
   ("0", 0), ("1", 1), ("2", 2), ("3", 3), ("4", 4), ("5", 5)]

/-- The rank that a word for a level stands for, in any letter case. -/
def rankOfWord? (word : List Char) : Option Nat :=
  levelWords.lookup (String.ofList (word.map Char.toLower))

/-! ## Directives -/

/-- What a directive asks of the fields of an event. -/
structure FieldPattern where
  name : String
  /-- The value that the field has to have, if any will not do. Every text is taken for a value. -/
  value : Option String := none
  deriving DecidableEq, Repr

/-- A rule about the events of a part of the program, in a span, with a field. -/
structure Directive where
  /-- What the target of an event starts with. -/
  target : String := ""
  span : Option String := none
  field : Option FieldPattern := none
  /-- The rank of the least weighty level that is shown. -/
  rank : Nat
  deriving DecidableEq, Repr

namespace Directive

open Keybind.Parser

/-- A character of a target. One beyond ASCII is taken for a letter. -/
def isTargetChar (c : Char) : Bool :=
  c.isAlphanum || c == '_' || c == ':' || c == '-' || 128 ≤ c.toNat

/-- A field between braces, with or without a value. -/
def fieldPattern : Parser FieldPattern := do
  let _ ← only '\x7b'
  let name ← takeWhile fun c => c != '=' && c != '\x7d'
  if name.isEmpty then failure
  let value ← optional (only '=' *> takeWhile (· != '\x7d'))
  let _ ← only '\x7d'
  return { name := String.ofList name, value := value.map String.ofList }

/-- A span between brackets: its name, a field of it, or both. -/
def spanPattern : Parser (Option String × Option FieldPattern) := do
  let _ ← only '['
  let name ← takeWhile fun c => c != ']' && c != '\x7b'
  let field ← optional fieldPattern
  let _ ← only ']'
  return (if name.isEmpty then none else some (String.ofList name), field)

/-- The level behind an equals sign; without one all levels are shown. -/
def rankPart : Parser Nat := do
  match ← optional (only '=' *> takeWhile fun _ => true) with
  | none | some [] => return Level.trace.rank
  | some word => StateT.lift (rankOfWord? word)

/-- A directive that is more than a level: it has a target or a span. -/
def pattern : Parser Directive := do
  let target ← takeWhile isTargetChar
  let place ← optional spanPattern
  if target.isEmpty && place.isNone then failure
  let (span, field) := place.getD (none, none)
  let rank ← rankPart
  atEnd
  return { target := String.ofList target, span, field, rank }

/-- The directive that a text spells. -/
def parse? (text : List Char) : Option Directive :=
  match rankOfWord? text with
  | some rank => some { rank }
  | none => (pattern text).map (·.1)

/-- Whether the directive is about an event. The program opens no spans, so a directive about a
span, or about the value that a field has there, is about no event. -/
def covers (directive : Directive) (event : Event) : Bool :=
  directive.target.toList.isPrefixOf event.target.toList && directive.span.isNone
    && match directive.field with
      | none => true
      | some field => field.value.isNone && event.fieldNames.contains field.name

/-- How specific the directive is: a longer target counts before a field does. -/
def weight (directive : Directive) : Nat :=
  2 * directive.target.length + (if directive.field.isSome then 1 else 0)

end Directive

/-! ## Filters -/

/-- The rules about which events are shown. -/
abbrev LogFilter := List Directive

namespace LogFilter

/-- The texts of the directives in a filter. -/
def texts (text : String) : List (List Char) :=
  (text.toList.splitOn ',').filter (· ≠ [])

/-- The filter of a list of directives. Where there is none, errors are shown. -/
def ofDirectives : List Directive → LogFilter
  | [] => [{ rank := Level.error.rank }]
  | directives => directives

/-- The filter that a text spells, if all its directives are well-formed. -/
def parse? (text : String) : Option LogFilter :=
  ((texts text).mapM Directive.parse?).map ofDirectives

/-- The filter of the well-formed directives in a text; the others are passed over, and what may be
said about them is left out. -/
def parseLenient (text : String) : LogFilter :=
  ofDirectives ((texts text).filterMap Directive.parse?)

/-- The directive that decides about an event: of those that are about it the most specific one, and
of two that are alike in this the later one. -/
def deciding? (filter : LogFilter) (event : Event) : Option Directive :=
  (filter.filter (·.covers event)).reverse.maxOn? Directive.weight

/-- No directive about an event is more specific than the one that decides. -/
theorem weight_le_of_deciding {filter : LogFilter} {event : Event} {deciding : Directive}
    (h : filter.deciding? event = some deciding) :
    deciding ∈ filter ∧ deciding.covers event = true
      ∧ ∀ other ∈ filter, other.covers event = true → other.weight ≤ deciding.weight := by
  obtain ⟨hmem, hcovers⟩ := List.mem_filter.mp (List.mem_reverse.mp (List.maxOn?_mem h))
  refine ⟨hmem, hcovers, fun other hother hcovers' => ?_⟩
  have hcandidate : other ∈ (filter.filter (·.covers event)).reverse :=
    List.mem_reverse.mpr (List.mem_filter.mpr ⟨hother, hcovers'⟩)
  have hle := List.le_apply_get_maxOn?_of_mem (f := Directive.weight) hcandidate
  simp only [deciding?] at h
  simpa only [h, Option.get_some] using hle

/-- Whether an event is shown. -/
def shows (filter : LogFilter) (event : Event) : Bool :=
  match filter.deciding? event with
  | some directive => event.level.rank ≤ directive.rank
  | none => false

end LogFilter

/-- The log lines of the events that a filter shows. -/
def logLines (filter : LogFilter) (events : List Event) : List String :=
  (events.filter filter.shows).map Event.line

end Keybind
