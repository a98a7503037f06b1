/-!
# Terminal control sequences

What a terminal would show of a text: control sequences are taken out, and so
are control characters other than white space. A sequence is introduced by the
escape character and runs up to a final character that depends on its kind.
White space within a sequence is shown, and so is what follows it; but the
sequence is only put aside, and goes on with the next character that is not
shown.
-/

namespace Keybind.Text

/-- How far a control sequence has been read. -/
inductive Sequence where
  /-- Within no sequence. -/
  | none
  /-- After the escape character. -/
  | escape
  /-- After the escape character and characters that narrow down what follows. -/
  | intermediate
  /-- Within a sequence that ends with a letter or the like. -/
  | parameters
  /-- Within a command that a bell ends. -/
  | command
  /-- At the head of a string for a device. -/
  | deviceHead
  /-- Within the parameters of a string for a device. -/
  | deviceParameters
  /-- After the parameters of a string for a device and characters that narrow down what follows. -/
  | deviceIntermediate
  /-- Within a string that a byte of its own ends. -/
  | string
  deriving DecidableEq, Repr

namespace Sequence

/-- Whether the encoding of a character holds the byte that ends a string. -/
def endsString (c : Char) : Bool :=
  (String.utf8EncodeChar c).contains 0x9C

/-- What a character makes of the sequence that the escape character has introduced. -/
def introduce (c : Char) : Sequence :=
  if c.toNat < 0x20 || 0x7F ≤ c.toNat then escape
  else if c.toNat < 0x30 then intermediate
  else
    match c with
    | '[' => parameters
    | ']' => command
    | 'P' => deviceHead
    | 'X' | '^' | '_' => string
    | _ => none

/-- What a character makes of the head of a string for a device, of which `sequence` has been read.
The string itself starts with a letter or the like, or with a character that is out of place. -/
def introduceDevice (sequence : Sequence) (c : Char) : Sequence :=
  if c.toNat < 0x20 || 0x7F ≤ c.toNat then sequence
  else if c.toNat < 0x30 then deviceIntermediate
  else if 0x40 ≤ c.toNat then string
  else
    match sequence with
    | deviceHead => deviceParameters
    | deviceParameters => if c.toNat < 0x3C then deviceParameters else string
    | _ => string

/-- How far the sequence has been read after a character. -/
def advance (sequence : Sequence) (c : Char) : Sequence :=
  if c = '\x1b' then escape
  else if c = '\x18' ∨ c = '\x1a' then none
  else
    match sequence with
    | none => none
    | escape => introduce c
    | intermediate => if 0x30 ≤ c.toNat ∧ c.toNat < 0x7F then none else intermediate
    | parameters => if 0x40 ≤ c.toNat ∧ c.toNat < 0x7F then none else parameters
    | command => if c = '\x07' then none else command
    | deviceHead | deviceParameters | deviceIntermediate => introduceDevice sequence c
    | string => if endsString c then none else string

end Sequence

/-- White space that a terminal acts on. -/
def isTerminalSpace (c : Char) : Bool :=
  c == '\t' || c == '\n' || c == '\x0c' || c == '\r'

/-- Whether a character is shown outside of sequences. -/
def isShown (c : Char) : Bool :=
  (0x20 ≤ c.toNat && c != '\x7f') || isTerminalSpace c

/-- Whether a character is shown within a sequence, and breaks it off. -/
def isShownWithin (sequence : Sequence) (c : Char) : Bool :=
  match sequence with
  | .none => isShown c
  | .escape | .intermediate | .parameters => isTerminalSpace c
  | .command | .deviceHead | .deviceParameters | .deviceIntermediate | .string => false

/-- What is shown of the rest of a text. `sequence` is the sequence that is being read, or that was
put aside if `showing`. -/
def shownFrom (sequence : Sequence) (showing : Bool) : List Char → List Char
  | [] => []
  | c :: cs =>
    if showing && isShown c || !showing && isShownWithin sequence c then
      c :: shownFrom (if c.toNat < 0x80 then sequence else .none) true cs
    else shownFrom (sequence.advance c) false cs

/-- What a terminal shows of a text. -/
def shown (s : String) : String :=
  String.ofList (shownFrom .none false s.toList)

end Keybind.Text
