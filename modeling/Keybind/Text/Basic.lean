/-!
# Text

A text is worked on as a list of characters. Positions in it are byte offsets
into its UTF-8 form, so a character counts for its encoded size.
-/

namespace Keybind.Text

/-! ## White space -/

/-- White space in the sense of Unicode: twenty-five code points. -/
def isBlank (c : Char) : Bool :=
  let n := c.toNat
  (9 ≤ n && n ≤ 13) || n == 0x20 || n == 0x85 || n == 0xA0 || n == 0x1680
    || (0x2000 ≤ n && n ≤ 0x200A) || n == 0x2028 || n == 0x2029 || n == 0x202F
    || n == 0x205F || n == 0x3000

/-- The text without the white space at its start. -/
def trimStart (cs : List Char) : List Char :=
  cs.dropWhile isBlank

/-- The text without the white space at its end. -/
def trimEnd (cs : List Char) : List Char :=
  (cs.reverse.dropWhile isBlank).reverse

/-- The text without the white space at both ends. -/
def trim (cs : List Char) : List Char :=
  trimEnd (trimStart cs)

/-- A line is indented by spaces and tabs only. -/
def isIndent (c : Char) : Bool :=
  c == ' ' || c == '\t'

/-- The leading spaces and tabs. -/
def indent (cs : List Char) : List Char :=
  cs.takeWhile isIndent

/-- What follows the leading spaces and tabs. -/
def body (cs : List Char) : List Char :=
  cs.dropWhile isIndent

/-! ## Bytes -/

/-- The number of bytes of the UTF-8 form. -/
def byteSize : List Char → Nat
  | [] => 0
  | c :: cs => c.utf8Size + byteSize cs

/-- The characters that lie wholly within the first `n` bytes. -/
def takeBytes : Nat → List Char → List Char
  | _, [] => []
  | n, c :: cs => if c.utf8Size ≤ n then c :: takeBytes (n - c.utf8Size) cs else []

/-- What `takeBytes n` leaves. -/
def dropBytes : Nat → List Char → List Char
  | _, [] => []
  | n, c :: cs => if c.utf8Size ≤ n then dropBytes (n - c.utf8Size) cs else c :: cs

end Keybind.Text
