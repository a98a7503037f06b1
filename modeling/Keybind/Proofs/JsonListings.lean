import Keybind.Output
import Keybind.Proofs.JsonText
import Keybind.Proofs.Lossless

/-!
# Reading a JSON listing back

A JSON listing is an array with an object for each segment. This module takes
the value that such a text stands for apart again, looking up the entries of an
object by their keys, and shows that nothing is lost: kinds, spans and texts are
all found again, so what is read tiles the script that the listing is of.

`Json.read?` and `Json.Writes` know nothing of segments. What is added here is
what a segment looks like as a value.
-/

namespace Keybind

/-! ## Parts of a value -/

namespace Json

/-- The entry of an object with a key. -/
def entry? (key : String) : Json → Option Json
  | object entries => entries.lookup key
  | _ => none

/-- The truth value that a value is. -/
def bool? : Json → Option Bool
  | bool b => some b
  | _ => none

/-- The count that a value is. -/
def number? : Json → Option Nat
  | number n => some n
  | _ => none

/-- The text that a value is. -/
def string? : Json → Option (List Char)
  | string text => some text
  | _ => none

/-- The keys of an object, in order. -/
def keys? : Json → Option (List String)
  | object entries => some (entries.map Prod.fst)
  | _ => none

end Json

/-! ## Segments -/

/-- The long bracket that a value is about. -/
def LongBracket.ofJson? (value : Json) : Option LongBracket := do
  let comment ← value.entry? "comment"
  let level ← value.entry? "level"
  return ⟨← comment.bool?, ← level.number?⟩

/-- The quotation mark that a value names. -/
def QuoteMark.ofJson? (value : Json) : Option QuoteMark := do
  let name ← value.string?
  [("Double", double), ("Single", single)].lookup (String.ofList name)

namespace SegmentKind

/-- The kinds that hold nothing, by their names. -/
def named : List (String × SegmentKind) :=
  [("LineBreak", lineBreak), ("Whitespace", whitespace), ("Text", text), ("Arrow", arrow),
    ("OpenBrace", openBrace), ("CloseBrace", closeBrace), ("LineComment", lineComment)]

/-- The kind that a value is about: a name, or an object with the name as its only key. -/
def ofJson? : Json → Option SegmentKind
  | .string name => named.lookup (String.ofList name)
  | .object [(name, value)] =>
    if name = "LongOpen" then longOpen <$> LongBracket.ofJson? value
    else if name = "LongClose" then longClose <$> LongBracket.ofJson? value
    else if name = "Quoted" then quoted <$> QuoteMark.ofJson? value
    else none
  | _ => none

end SegmentKind

/-- The span that a value is about. -/
def Span.ofJson? (value : Json) : Option Span := do
  let start ← value.entry? "start"
  let stop ← value.entry? "end"
  return ⟨← start.number?, ← stop.number?⟩

/-- The segment that a value is about. -/
def Segment.ofJson? (value : Json) : Option Segment := do
  let kind ← value.entry? "kind"
  let span ← value.entry? "span"
  let text ← value.entry? "text"
  return ⟨← SegmentKind.ofJson? kind, ← Span.ofJson? span, ← text.string?⟩

@[simp] theorem LongBracket.ofJson?_toJson (bracket : LongBracket) :
    ofJson? bracket.toJson = some bracket :=
  rfl

@[simp] theorem QuoteMark.ofJson?_toJson (mark : QuoteMark) : ofJson? mark.toJson = some mark := by
  cases mark <;> rfl

@[simp] theorem Span.ofJson?_toJson (span : Span) : ofJson? span.toJson = some span :=
  rfl

/-- A kind is found again in its value. -/
@[simp] theorem SegmentKind.ofJson?_toJson (kind : SegmentKind) :
    ofJson? kind.toJson = some kind := by
  cases kind with
  | longOpen bracket => simp [toJson, ofJson?]
  | longClose bracket => simp [toJson, ofJson?]
  | quoted mark => simp [toJson, ofJson?]
  | _ => rfl

/-- **A segment is found again in its value.** -/
theorem Segment.ofJson?_toJson (segment : Segment) : ofJson? segment.toJson = some segment := by
  have hkind : segment.toJson.entry? "kind" = some segment.kind.toJson := rfl
  have hspan : segment.toJson.entry? "span" = some segment.span.toJson := rfl
  have htext : segment.toJson.entry? "text" = some (.string segment.text) := rfl
  simp only [ofJson?, hkind, hspan, htext, Json.string?, Option.bind_eq_bind, Option.bind_some,
    SegmentKind.ofJson?_toJson, Span.ofJson?_toJson]
  rfl

theorem Segment.mapM_ofJson? (segments : List Segment) :
    (segments.map toJson).mapM ofJson? = some segments := by
  induction segments with
  | nil => rfl
  | cons segment segments ih =>
      rw [List.map_cons, List.mapM_cons, Segment.ofJson?_toJson, ih]
      rfl

/-! ## Whole scripts -/

/-- A JSON listing stands for the array of its segments, without blanks around it. -/
theorem padded_listJson (segments : List Segment) :
    Json.Padded Json.Writes (.array (segments.map Segment.toJson)) (listJson segments) :=
  ⟨[], listJson segments, [], by simp, Json.blank_nil, Json.writes_pretty 0 _, Json.blank_nil⟩

/-- **A JSON listing is read back.** Whatever the script, its listing is a well-formed text that
stands for one value only: an array with an object for each segment, in order. Kinds, spans and
texts are found again in these objects; the texts put together are the script, and the spans tile
it. -/
theorem json_listing_reads_back (options : Options) (source : String) :
    ∃ (text : List Char) (items : List Json) (segments : List Segment),
      render options .segmentsJson source.toList = ⟨[], .ok text⟩
      ∧ Json.Padded Json.Writes (.array items) text
      ∧ (∀ value, Json.Padded Json.Writes value text → value = .array items)
      ∧ Json.read? text = some (.array items)
      ∧ items.length = (lex source.toList).length
      ∧ (∀ item ∈ items, item.keys? = some ["kind", "span", "text"])
      ∧ items.mapM Segment.ofJson? = some segments
      ∧ segments = lex source.toList
      ∧ segments.flatMap (·.text) = source.toList
      ∧ Tiles source segments := by
  have hpadded := padded_listJson (lex source.toList)
  refine ⟨listJson (lex source.toList), (lex source.toList).map Segment.toJson, lex source.toList,
    rfl, hpadded, fun value hvalue => hvalue.unique hpadded, Json.read?_eq_some_iff.mpr hpadded,
    List.length_map _, ?_, Segment.mapM_ofJson? _, rfl, text_lex _, tiles_lex source⟩
  intro item hitem
  obtain ⟨segment, -, rfl⟩ := List.mem_map.mp hitem
  rfl

end Keybind
