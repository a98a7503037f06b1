import Keybind.Parser

/-!
# Dates and times

A moment is a date, a time of day, or both, in which case it may say how far
the clock is from universal time. It is kept only to be written again, in one
form: a `T` between the two parts, and no zeros at the end of a fraction.
-/

namespace Keybind.Toml

open Keybind.Parser

/-- A day of the calendar. -/
structure Date where
  year : Nat
  month : Nat
  day : Nat
  deriving DecidableEq, Repr

/-- A time of day. -/
structure ClockTime where
  hour : Nat
  minute : Nat
  second : Nat
  nanosecond : Nat
  deriving DecidableEq, Repr

/-- How far a clock is from universal time. -/
inductive Offset where
  | universal
  | minutes (behind : Bool) (count : Nat)
  deriving DecidableEq, Repr

/-- A date, a time of day, or both. -/
inductive Moment where
  | date (day : Date)
  | time (clock : ClockTime)
  | both (day : Date) (clock : ClockTime) (offset : Option Offset)
  deriving DecidableEq, Repr

/-! ## Writing -/

/-- A number with at least the given number of digits. -/
def padded (width n : Nat) : String :=
  let digits := Nat.toDigits 10 n
  String.ofList (List.replicate (width - digits.length) '0' ++ digits)

/-- The text of a date. -/
def Date.text (date : Date) : String :=
  padded 4 date.year ++ "-" ++ padded 2 date.month ++ "-" ++ padded 2 date.day

/-- The text of a fraction of a second, with its point; a whole second has none. -/
def fractionText (nanosecond : Nat) : String :=
  if nanosecond = 0 then ""
  else
    let digits := (padded 9 nanosecond).toList.reverse.dropWhile (· = '0')
    "." ++ String.ofList digits.reverse

/-- The text of a time of day. -/
def ClockTime.text (time : ClockTime) : String :=
  padded 2 time.hour ++ ":" ++ padded 2 time.minute ++ ":" ++ padded 2 time.second
    ++ fractionText time.nanosecond

/-- The text of an offset. No offset is behind by nothing. -/
def Offset.text : Offset → String
  | universal => "Z"
  | minutes behind count =>
    (if behind ∧ count ≠ 0 then "-" else "+") ++ padded 2 (count / 60) ++ ":"
      ++ padded 2 (count % 60)

/-- The text of a moment. -/
def Moment.text : Moment → String
  | date day => day.text
  | time clock => clock.text
  | both day clock offset =>
    day.text ++ "T" ++ clock.text ++ (offset.map Offset.text).getD ""

/-! ## Reading -/

/-- A number of the given width between two bounds. -/
def fixed (width low high : Nat) : Parser Nat := do
  let digits ← (List.replicate width (char Char.isDigit)).mapM id
  let n := digits.foldl (fun n c => 10 * n + (c.toNat - '0'.toNat)) 0
  if low ≤ n ∧ n ≤ high then return n else failure

/-- Whether a year has a day more. -/
def isLeapYear (year : Nat) : Bool :=
  year % 4 = 0 && (year % 100 ≠ 0 || year % 400 = 0)

/-- The number of days of a month. -/
def daysInMonth (year month : Nat) : Nat :=
  match month with
  | 2 => if isLeapYear year then 29 else 28
  | 4 | 6 | 9 | 11 => 30
  | _ => 31

/-- A date. -/
def date : Parser Date := do
  let year ← fixed 4 0 9999
  let _ ← only '-'
  let month ← fixed 2 1 12
  let _ ← only '-'
  let day ← fixed 2 1 (daysInMonth year month)
  return { year, month, day }

/-- A fraction of a second in billionths; further digits are dropped. -/
def nanoseconds : Parser Nat := do
  let _ ← only '.'
  let digits ← takeWhile Char.isDigit
  if digits.isEmpty then failure
  return ((digits ++ List.replicate 9 '0').take 9).foldl
    (fun n c => 10 * n + (c.toNat - '0'.toNat)) 0

/-- A time of day. A minute may have a leap second. -/
def clockTime : Parser ClockTime := do
  let hour ← fixed 2 0 23
  let _ ← only ':'
  let minute ← fixed 2 0 59
  let _ ← only ':'
  let second ← fixed 2 0 60
  let nanosecond := (← optional nanoseconds).getD 0
  return { hour, minute, second, nanosecond }

/-- An offset. -/
def offset : Parser Offset :=
  (do
    let _ ← char fun c => c == 'Z' || c == 'z'
    return .universal)
  <|> (do
    let behind := (← char fun c => c == '+' || c == '-') == '-'
    let hours ← fixed 2 0 23
    let _ ← only ':'
    let minutes ← fixed 2 0 59
    return .minutes behind (60 * hours + minutes))

/-- A time of day and an offset, after what parts them from the date. -/
def timeOfDate : Parser (ClockTime × Option Offset) := do
  let _ ← char fun c => c == 'T' || c == 't' || c == ' '
  let time ← clockTime
  return (time, ← optional offset)

/-- A moment. -/
def moment : Parser Moment :=
  (do
    let date ← date
    match ← optional timeOfDate with
    | some (time, offset) => return .both date time offset
    | none => return .date date)
  <|> .time <$> clockTime

end Keybind.Toml
