import Keybind.Segment

/-!
# From tokens to segments

Only the kinds of the tokens decide how they are grouped. Each token either
starts a segment or continues the one before it; `marks` says which, token by
token. A segment that needs more than one token is found by looking ahead:

* `[`, any number of `=`, `[` opens a long bracket and `]`, `=`…, `]` closes
  one, with `--` in front for a comment;
* a quotation mark starts a string if its partner stands on the same line, where
  a backslash hides the token after it.

After a bare `--` everything up to the end of the line is text. Within long
brackets only their delimiters count, and quotation marks and `--` are text.
-/

namespace Keybind

/-- What the tokens at hand belong to. -/
inductive Mode where
  | code
  | lineComment
  /-- Within long brackets, with the number of openers still to be closed. -/
  | longBracket (depth : Nat)
  deriving DecidableEq, Repr, Inhabited

namespace Mode

/-- The mode after an opener. -/
def opened : Mode → Mode
  | longBracket depth => longBracket (depth + 1)
  | _ => longBracket 1

/-- The mode after a closer. -/
def closed : Mode → Mode
  | longBracket (depth + 2) => longBracket (depth + 1)
  | _ => code

end Mode

/-- A delimiter of a long bracket, without its comment mark. -/
structure Delimiter where
  opening : Bool
  level : Nat
  deriving DecidableEq, Repr

namespace Delimiter

/-- The level of a delimiter whose first square bracket has just been read. -/
def level? (square : Token) (ts : List Token) : Option Nat :=
  if (ts.dropWhile (· == .equals)).head? = some square then
    some (ts.takeWhile (· == .equals)).length
  else none

/-- The delimiter at the head of the tokens. -/
def at? : List Token → Option Delimiter
  | .openBracket :: ts => (level? .openBracket ts).map fun level => ⟨true, level⟩
  | .closeBracket :: ts => (level? .closeBracket ts).map fun level => ⟨false, level⟩
  | _ => none

/-- The number of tokens after the first square bracket. -/
def extra (delimiter : Delimiter) : Nat :=
  delimiter.level + 1

/-- The kind of segment that the delimiter makes. -/
def kind (delimiter : Delimiter) (comment : Bool) : SegmentKind :=
  if delimiter.opening then .longOpen ⟨comment, delimiter.level⟩
  else .longClose ⟨comment, delimiter.level⟩

/-- The mode after the delimiter. -/
def mode (delimiter : Delimiter) (before : Mode) : Mode :=
  if delimiter.opening then before.opened else before.closed

end Delimiter

/-- The number of tokens up to and including the closing mark of a string. -/
def closingQuote? (mark : Token) : List Token → Option Nat
  | [] => none
  | .backslash :: [] => none
  | .backslash :: _ :: ts => (closingQuote? mark ts).map (· + 2)
  | t :: ts =>
    if t = mark then some 1
    else if t = .newline then none
    else (closingQuote? mark ts).map (· + 1)

/-- The segment that starts at a token. -/
structure Head where
  kind : SegmentKind
  /-- The number of tokens after the first that belong to it. -/
  extra : Nat
  /-- The mode after it. -/
  mode : Mode
  deriving DecidableEq, Repr

namespace Head

/-- A segment that is one token and changes nothing. -/
def single (kind : SegmentKind) (mode : Mode) : Head :=
  ⟨kind, 0, mode⟩

/-- The segment that starts at `--`. -/
def ofDashes (mode : Mode) (rest : List Token) : Head :=
  match Delimiter.at? rest with
  | some delimiter => ⟨delimiter.kind true, delimiter.extra + 1, delimiter.mode mode⟩
  | none => if mode = .code then single .lineComment .lineComment else single .text mode

/-- The segment that starts at a square bracket. -/
def ofSquare (mode : Mode) (square : Token) (rest : List Token) : Head :=
  match Delimiter.at? (square :: rest) with
  | some delimiter => ⟨delimiter.kind false, delimiter.extra, delimiter.mode mode⟩
  | none => single .text mode

/-- The segment that starts at a quotation mark. -/
def ofQuote (mode : Mode) (token : Token) (mark : QuoteMark) (rest : List Token) : Head :=
  match if mode = .code then closingQuote? token rest else none with
  | some extra => ⟨.quoted mark, extra, mode⟩
  | none => single .text mode

/-- The segment that starts at the first of the tokens `token :: rest`. -/
def of (mode : Mode) (token : Token) (rest : List Token) : Head :=
  if mode = .lineComment then
    if token = .newline then single .lineBreak .code else single .text .lineComment
  else
    match token with
    | .newline => single .lineBreak mode
    | .whitespace => single .whitespace mode
    | .arrow => single .arrow mode
    | .openBrace => single .openBrace mode
    | .closeBrace => single .closeBrace mode
    | .doubleDash => ofDashes mode rest
    | .openBracket | .closeBracket => ofSquare mode token rest
    | .doubleQuote => ofQuote mode token .double rest
    | .singleQuote => ofQuote mode token .single rest
    | .dash | .equals | .backslash | .text => single .text mode

end Head

/-- For each token the kind of the segment it starts, or `none` if it continues one; the first
`pending` tokens continue one. -/
def marks (mode : Mode) : Nat → List Token → List (Option SegmentKind)
  | _, [] => []
  | 0, t :: ts =>
    let head := Head.of mode t ts
    some head.kind :: marks head.mode head.extra ts
  | pending + 1, _ :: ts => none :: marks mode pending ts

/-- A segment kind with the tokens that make the segment. -/
structure Group (α : Type) where
  kind : SegmentKind
  first : α
  rest : List α
  deriving DecidableEq, Repr

namespace Group

/-- The members of a group, in order. -/
def members {α : Type} (group : Group α) : List α :=
  group.first :: group.rest

/-- A group in front of others; text is put together with the text that follows it. -/
def attach {α : Type} (group : Group α) : List (Group α) → List (Group α)
  | [] => [group]
  | next :: groups =>
    if group.kind = .text ∧ next.kind = .text then
      ⟨.text, group.first, group.rest ++ next.members⟩ :: groups
    else group :: next :: groups

/-- The groups of marked items, and the items in front of the first mark. -/
def collect {α : Type} : List (Option SegmentKind × α) → List α × List (Group α)
  | [] => ([], [])
  | (none, a) :: items =>
    let (pending, groups) := collect items
    (a :: pending, groups)
  | (some kind, a) :: items =>
    let (pending, groups) := collect items
    ([], attach ⟨kind, a, pending⟩ groups)

end Group

/-- Items grouped by the tokens they carry. -/
def groups {α : Type} (token : α → Token) (items : List α) : List (Group α) :=
  (Group.collect ((marks .code 0 (items.map token)).zip items)).2

/-- The segments of a list of tokens. -/
def segment (tokens : List (Lexeme Token)) : List Segment :=
  (groups (·.kind) tokens).map fun group => Lexeme.join group.kind group.first group.rest

/-- The segments of a source. -/
def lex (cs : List Char) : List Segment :=
  segment (tokenize cs)

end Keybind
