import Keybind.Toml.Moment
import Keybind.Value

/-!
# The grammar of TOML

The parts of a document from the smallest on: blanks, strings, keys and
numbers, and values as far as they do not depend on what tables are.
-/

namespace Keybind.Toml

open Keybind.Parser

/-! ## Blanks -/

/-- Spaces and tabs. -/
def isWs (c : Char) : Bool :=
  c == ' ' || c == '\t'

/-- A character that a comment may hold. -/
def isCommentChar (c : Char) : Bool :=
  c == '\t' || (0x20 ≤ c.toNat && c.toNat ≠ 0x7F)

/-- Blanks within a line. -/
def ws : Parser Unit := do
  let _ ← takeWhile isWs

/-- The end of a line. -/
def newline : Parser Unit :=
  word ['\n'] <|> word ['\r', '\n']

/-- A comment, without the end of its line. -/
def comment : Parser Unit := do
  let _ ← only '#'
  let _ ← takeWhile isCommentChar

/-- What may follow on the line of a statement. -/
def lineEnd : Parser Unit := do
  ws
  let _ ← optional comment
  newline <|> atEnd

/-- Blanks, comments and ends of lines, as they may stand within an array. -/
def gap : Parser Unit := do
  ws
  let _ ← many (do
    let _ ← optional comment
    newline
    ws)

/-! ## Strings -/

/-- A character that stands for itself in a string with escapes. -/
def isBasicChar (c : Char) : Bool :=
  isCommentChar c && c ≠ '"' && c ≠ '\\'

/-- A character that stands for itself in a string without escapes. -/
def isLiteralChar (c : Char) : Bool :=
  isCommentChar c && c ≠ '\x27'

/-- The value of a digit in bases up to sixteen. -/
def digitValue (c : Char) : Nat :=
  if c.isDigit then c.toNat - '0'.toNat
  else if c.isLower then c.toNat - 'a'.toNat + 10
  else c.toNat - 'A'.toNat + 10

/-- A digit of base sixteen. -/
def isHexDigit (c : Char) : Bool :=
  c.isDigit || ('a' ≤ c && c ≤ 'f') || ('A' ≤ c && c ≤ 'F')

/-- The number that digits spell. -/
def numeral (base : Nat) (digits : List Char) : Nat :=
  digits.foldl (fun n c => base * n + digitValue c) 0

/-- The character of a number of digits in base sixteen. -/
def codePoint (digits : Nat) : Parser Char := do
  let code := numeral 16 (← (List.replicate digits (char isHexDigit)).mapM id)
  if code.isValidChar then return Char.ofNat code else failure

/-- An escape, from its backslash on. -/
def escape : Parser Char := do
  let _ ← only '\\'
  match ← char fun _ => true with
  | 'b' => return '\x08'
  | 't' => return '\t'
  | 'n' => return '\n'
  | 'f' => return '\x0c'
  | 'r' => return '\r'
  | '"' => return '"'
  | '\\' => return '\\'
  | 'u' => codePoint 4
  | 'U' => codePoint 8
  | _ => failure

/-- A string with escapes. -/
def basicString : Parser (List Char) := do
  let _ ← only '"'
  let text ← many (char isBasicChar <|> escape)
  let _ ← only '"'
  return text

/-- A string without escapes. -/
def literalString : Parser (List Char) := do
  let _ ← only '\x27'
  let text ← takeWhile isLiteralChar
  let _ ← only '\x27'
  return text

/-- One or two quotation marks that do not close a string of several lines. -/
def innerQuotes (mark : Char) : Parser (List Char) := do
  let marks ← takeWhile (· = mark)
  if marks.length = 1 ∨ marks.length = 2 then return marks else failure

/-- The three marks that close a string of several lines, after at most two that belong to it. -/
def closingQuotes (mark : Char) : Parser (List Char) := do
  let marks ← takeWhile (· = mark)
  if 3 ≤ marks.length ∧ marks.length ≤ 5 then return marks.drop 3 else failure

/-- The end of a line within a string. -/
def stringNewline : Parser (List Char) := do
  newline
  return ['\n']

/-- A backslash at the end of a line, which hides the blanks and line ends that follow. -/
def hiddenNewline : Parser (List Char) := do
  let _ ← only '\\'
  ws
  newline
  let _ ← many ((do let _ ← char isWs) <|> newline)
  return []

/-- A string of several lines, given its mark and what stands between marks. -/
def multiLine (mark : Char) (content : Parser (List Char)) : Parser (List Char) := do
  word [mark, mark, mark]
  let _ ← optional newline
  let text ← many (content <|> innerQuotes mark)
  let last ← closingQuotes mark
  return text.flatten ++ last

/-- A string with escapes of several lines. -/
def multiLineBasic : Parser (List Char) :=
  multiLine '"' (List.singleton <$> char isBasicChar
    <|> hiddenNewline <|> List.singleton <$> escape <|> stringNewline)

/-- A string without escapes of several lines. -/
def multiLineLiteral : Parser (List Char) :=
  multiLine '\x27' (List.singleton <$> char isLiteralChar <|> stringNewline)

/-- A string of any kind. One that starts like a string of several lines is nothing else. -/
def string : Parser (List Char)
  | cs =>
    if ['"', '"', '"'].isPrefixOf cs then multiLineBasic cs
    else if ['\x27', '\x27', '\x27'].isPrefixOf cs then multiLineLiteral cs
    else (basicString <|> literalString) cs

/-! ## Keys -/

/-- A character of a key without quotation marks. -/
def isBareChar (c : Char) : Bool :=
  c.isAlphanum || c == '_' || c == '-'

/-- A key without quotation marks. -/
def bareKey : Parser (List Char) := do
  let text ← takeWhile isBareChar
  if text.isEmpty then failure else return text

/-- One part of a key. -/
def keyPart : Parser String := do
  ws
  let text ← basicString <|> literalString <|> bareKey
  ws
  return String.ofList text

/-- The number of parts of a key, and of levels of nesting, that is too many. -/
def limit : Nat :=
  80

/-- A key with its parts. -/
def key : Parser (List String) := do
  let parts ← separated keyPart (only '.')
  if parts.isEmpty ∨ limit ≤ parts.length then failure else return parts

/-! ## Numbers -/

/-- Digits of a class, where an underscore may stand between two. -/
def digits (accept : Char → Bool) : Parser (List Char) := do
  let first ← char accept
  let rest ← many (do
    let _ ← optional (only '_')
    char accept)
  return first :: rest

/-- A sign, if there is one: whether it is a minus. -/
def sign : Parser Bool := do
  return (← optional (char fun c => c == '+' || c == '-')) == some '-'

/-- The digits of a whole number in base ten: a zero stands alone. -/
def wholeDigits : Parser (List Char) :=
  List.singleton <$> only '0' <|> digits Char.isDigit

/-- A whole number within the range of 64 bits. -/
def bounded (n : Int) : Parser Scalar :=
  if -Int.pow 2 63 ≤ n ∧ n < Int.pow 2 63 then return .int n else failure

/-- A whole number in another base than ten, after a zero and a letter. -/
def based (letter : Char) (base : Nat) (accept : Char → Bool) : Parser Scalar := do
  word ['0', letter]
  bounded (numeral base (← digits accept))

/-- A whole number. -/
def integer : Parser Scalar :=
  based 'x' 16 isHexDigit
    <|> based 'o' 8 (fun c => '0' ≤ c && c ≤ '7')
    <|> based 'b' 2 (fun c => c == '0' || c == '1')
    <|> (do
      let negative ← sign
      let n : Int := numeral 10 (← wholeDigits)
      bounded (if negative then -n else n))

/-- The exponent of a number. -/
def exponent : Parser Int := do
  let _ ← char fun c => c == 'e' || c == 'E'
  let negative ← sign
  let n : Int := numeral 10 (← digits Char.isDigit)
  return if negative then -n else n

/-- A number with a fraction or an exponent. One too large for a double is refused, unless it is
negative. -/
def decimal : Parser Scalar := do
  let negative ← sign
  let whole ← wholeDigits
  let fraction ← optional (only '.' *> digits Char.isDigit)
  let power ← optional exponent
  if fraction.isNone ∧ power.isNone then failure
  let fraction := fraction.getD []
  let x := Binary64.ofDecimal negative (numeral 10 (whole ++ fraction))
    (power.getD 0 - fraction.length)
  if x = .infinite false then failure else return .real x

/-- Infinity, or what is no number. -/
def specialDecimal : Parser Scalar := do
  let negative ← sign
  (word "inf".toList *> pure (.real (.infinite negative)))
    <|> (word "nan".toList *> pure (.real .nan))

/-! ## Values -/

/-- A truth value. -/
def boolean : Parser Scalar :=
  (word "true".toList *> pure (.bool true)) <|> (word "false".toList *> pure (.bool false))

/-- A value without parts. A date or time is the text that it is written as. -/
def scalar : Parser Scalar :=
  (do return .text (String.ofList (← string)))
    <|> boolean <|> (do return .text (← moment).text)
    <|> decimal <|> specialDecimal <|> integer

/-- An array, given what its items are. -/
def array (item : Parser Value) : Parser (List Value) := do
  let _ ← only '['
  let items ← separated (gap *> item <* gap) (only ',')
  unless items.isEmpty do
    let _ ← optional (only ',')
  gap
  let _ ← only ']'
  return items

/-- A key and its value, given what values are. -/
def assignment (value : Parser Value) : Parser (List String × Value) := do
  let path ← key
  let _ ← only '='
  ws
  return (path, ← value)

end Keybind.Toml
