import Keybind.Json
import Keybind.Segment
import Keybind.Text.Quoted

/-!
# Listings

Two ways to show the segments of a script: a line for each, or a JSON array.
-/

namespace Keybind

namespace Segment

/-- The line of a segment: its kind, a tab, and its text as a quoted literal. -/
def listingLine (segment : Segment) : List Char :=
  segment.kind.label.toList ++ ['\t'] ++ Text.quoted segment.text ++ ['\n']

end Segment

/-- A long bracket as JSON. -/
def LongBracket.toJson (bracket : LongBracket) : Json :=
  .object [("comment", .bool bracket.comment), ("level", .number bracket.level)]

/-- A quotation mark as JSON. -/
def QuoteMark.toJson : QuoteMark → Json
  | double => .string "Double".toList
  | single => .string "Single".toList

/-- A kind as JSON: its name, or its name with what it holds. -/
def SegmentKind.toJson : SegmentKind → Json
  | longOpen bracket => .object [("LongOpen", bracket.toJson)]
  | longClose bracket => .object [("LongClose", bracket.toJson)]
  | quoted mark => .object [("Quoted", mark.toJson)]
  | kind => .string kind.label.toList

/-- A span as JSON. -/
def Span.toJson (span : Span) : Json :=
  .object [("start", .number span.start), ("end", .number span.stop)]

/-- A segment as JSON. -/
def Segment.toJson (segment : Segment) : Json :=
  .object [("kind", segment.kind.toJson), ("span", segment.span.toJson),
    ("text", .string segment.text)]

/-- The segments, a line for each. -/
def listLines (segments : List Segment) : List Char :=
  segments.flatMap Segment.listingLine

/-- The segments as a JSON array. -/
def listJson (segments : List Segment) : List Char :=
  (Json.array (segments.map Segment.toJson)).render

end Keybind
