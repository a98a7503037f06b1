import Keybind.Fault
import Keybind.Options
import Keybind.Piece
import Keybind.Scope

/-!
# The emitter

The emitter takes one segment at a time and keeps the output so far. Braces
and arrows count in code only; within comments and long brackets everything is
copied.

* An opening brace starts a scope. If the last segment other than white space
  was an arrow, the scope is the body of a match and the brace is replaced.
* A closing brace ends the innermost scope and is replaced if its partner was.
* An arrow takes back the output of its line, and puts an assignment to the
  match table in its place.

A segment that cannot be taken leaves the output, the scopes and the memory of
an arrow as they were.
-/

namespace Keybind

/-! ## Where the emitter stands -/

/-- An opener of a long bracket and its byte offset. -/
structure Opener where
  bracket : LongBracket
  offset : Nat
  deriving DecidableEq, Repr

/-- What the emitter is within. -/
inductive Context where
  | code
  | lineComment
  /-- Long brackets that are still open, the innermost first. -/
  | longBracket (openers : List Opener)
  deriving DecidableEq, Repr

namespace Context

/-- The context once the innermost opener has been closed. -/
def ofOpeners : List Opener → Context
  | [] => code
  | openers => longBracket openers

/-- The context after a segment, and the fault if the segment does not fit. A closer that does not
fit still uses up the innermost opener. -/
def advance (context : Context) (segment : Segment) : Context × Option (Fault Nat) :=
  match context, segment.kind with
  | code, .lineComment => (lineComment, none)
  | code, .longOpen bracket => (longBracket [⟨bracket, segment.span.start⟩], none)
  | code, .longClose found => (code, some (.mismatchedLongBracket segment.span.start none found))
  | code, _ => (code, none)
  | lineComment, .lineBreak => (code, none)
  | lineComment, _ => (lineComment, none)
  | longBracket openers, .longOpen bracket =>
    (longBracket (⟨bracket, segment.span.start⟩ :: openers), none)
  | longBracket [], .longClose found =>
    (longBracket [], some (.mismatchedLongBracket segment.span.start none found))
  | longBracket (innermost :: openers), .longClose found =>
    if innermost.bracket.level = found.level then (ofOpeners openers, none)
    else (longBracket openers,
      some (.mismatchedLongBracket segment.span.start (some innermost.bracket) found))
  | longBracket openers, _ => (longBracket openers, none)

end Context

/-- The state of the output. -/
structure Emitter where
  /-- The output so far, the latest piece first. -/
  pieces : List Piece := []
  /-- The open scopes, the innermost first. -/
  scopes : List Scope := []
  context : Context := .code
  /-- Whether the last segment other than white space was an arrow in code. -/
  afterArrow : Bool := false
  deriving DecidableEq, Repr

/-- What the emitter reports of a segment that it did not just copy. -/
inductive EmitEvent where
  | matched (pattern : List Char)
  | opened (depth : Nat) (kind : ScopeKind)
  | closed (depth : Nat) (kind : ScopeKind)
  deriving DecidableEq, Repr

/-- A segment copied to the output. -/
def Segment.copy (segment : Segment) : Piece :=
  if segment.kind = .lineBreak then .lineBreak segment.text else .source segment.text

namespace Emitter

/-! ## Feeding -/

/-- The output of the current line. -/
def line (emitter : Emitter) : List Char :=
  Piece.assemble (emitter.pieces.takeWhile fun piece => !piece.isLineBreak).reverse

/-- The output of the lines before the current one, the latest piece first. -/
def linesBefore (emitter : Emitter) : List Piece :=
  emitter.pieces.dropWhile fun piece => !piece.isLineBreak

/-- The kind of scope that an opening brace starts. -/
def scopeKind (emitter : Emitter) : ScopeKind :=
  if emitter.afterArrow then .body else .literal

/-- The memory of an arrow after a segment; white space is looked through. -/
def arrowAfter (emitter : Emitter) (segment : Segment) : Bool :=
  if segment.kind = .whitespace then emitter.afterArrow
  else emitter.context = .code && segment.kind = .arrow

/-- An opening brace in code. -/
def openScope (options : Options) (emitter : Emitter) (segment : Segment) :
    Emitter × EmitEvent :=
  let kind := emitter.scopeKind
  let piece := match kind with
    | .body => Piece.generated options.scopeOpen
    | .literal => Piece.source segment.text
  ({ emitter with
      pieces := piece :: emitter.pieces
      scopes := ⟨kind, segment.span.start⟩ :: emitter.scopes },
    .opened (emitter.scopes.length + 1) kind)

/-- A closing brace in code that ends the scope `scope`, within the scopes `outer`. -/
def closeScope (emitter : Emitter) (segment : Segment) (scope : Scope) (outer : List Scope) :
    Emitter × EmitEvent :=
  let piece := match scope.kind with
    | .body => Piece.generated Options.scopeClose
    | .literal => Piece.source segment.text
  ({ emitter with pieces := piece :: emitter.pieces, scopes := outer },
    .closed outer.length scope.kind)

/-- An arrow in code. -/
def assignPattern (options : Options) (emitter : Emitter) : Emitter × EmitEvent :=
  let line := emitter.line
  let pattern := Text.trim (Text.body line)
  ({ emitter with
      pieces := .generated (options.assignment (Text.indent line) pattern)
        :: emitter.linesBefore },
    .matched pattern)

/-- A segment that the output takes over as it is. -/
def copy (emitter : Emitter) (segment : Segment) : Emitter :=
  { emitter with pieces := segment.copy :: emitter.pieces }

/-- The output and the scopes after a segment that fits the context. -/
def apply (options : Options) (emitter : Emitter) (segment : Segment) :
    Except (Fault Nat) (Emitter × Option EmitEvent) :=
  match emitter.context, segment.kind with
  | .code, .openBrace =>
    let (emitter, event) := emitter.openScope options segment
    .ok (emitter, some event)
  | .code, .closeBrace =>
    match emitter.scopes with
    | [] => .error (.unbalancedClose segment.span.start)
    | scope :: outer =>
      let (emitter, event) := emitter.closeScope segment scope outer
      .ok (emitter, some event)
  | .code, .arrow =>
    let (emitter, event) := emitter.assignPattern options
    .ok (emitter, some event)
  | _, _ => .ok (emitter.copy segment, none)

/-- The state after a segment, and either what is reported of it or the fault. -/
def feed (options : Options) (emitter : Emitter) (segment : Segment) :
    Emitter × Except (Fault Nat) (Option EmitEvent) :=
  match emitter.context.advance segment with
  | (context, some fault) => ({ emitter with context }, .error fault)
  | (context, none) =>
    match emitter.apply options segment with
    | .error fault => (emitter, .error fault)
    | .ok (next, event) =>
      ({ next with context, afterArrow := emitter.arrowAfter segment }, .ok event)

/-- All segments in order up to the first fault, with what is reported on the way. -/
def feedAll (options : Options) (emitter : Emitter) :
    List Segment → List EmitEvent × Except (Fault Nat) Emitter
  | [] => ([], .ok emitter)
  | segment :: segments =>
    match emitter.feed options segment with
    | (_, .error fault) => ([], .error fault)
    | (next, .ok event) =>
      let (events, result) := next.feedAll options segments
      (event.toList ++ events, result)

/-! ## The end of the script -/

/-- The outermost long bracket that is still open. -/
def outermost? (emitter : Emitter) : Option Opener :=
  match emitter.context with
  | .longBracket openers => openers.getLast?
  | _ => none

/-- The pieces in order, if the script may end here. -/
def finish (options : Options) (emitter : Emitter) : Except (Fault Nat) (List Piece) :=
  match if options.rejectUnterminated then emitter.outermost? else none with
  | some opener => .error (.unterminatedLongBracket opener.offset opener.bracket)
  | none =>
    match emitter.scopes with
    | scope :: _ => .error (.unbalancedOpen scope.offset)
    | [] => .ok emitter.pieces.reverse

/-! ## Going on after faults -/

/-- The state after all segments, whatever faults there are. -/
def feedOn (options : Options) (emitter : Emitter) (segments : List Segment) : Emitter :=
  segments.foldl (fun emitter segment => (emitter.feed options segment).1) emitter

/-- The fault of a feed. -/
def fault? (options : Options) (emitter : Emitter) (segment : Segment) : Option (Fault Nat) :=
  match (emitter.feed options segment).2 with
  | .error fault => some fault
  | .ok _ => none

/-- For each segment, going on after faults, the fault it gives and the outcome if the script
ended after it. -/
def history (options : Options) (emitter : Emitter) :
    List Segment → List (Option (Fault Nat) × Except (Fault Nat) (List Piece))
  | [] => []
  | segment :: segments =>
    let next := (emitter.feed options segment).1
    (emitter.fault? options segment, next.finish options) :: next.history options segments

end Emitter

end Keybind
