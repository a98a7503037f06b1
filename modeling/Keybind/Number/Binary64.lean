/-!
# Double-precision numbers

A finite number is a whole multiple of a power of two. Everything here is exact
arithmetic on whole numbers: reading rounds a decimal to the nearest double, and
writing takes the fewest digits that are read back as the same double.
-/

namespace Keybind

/-- A double-precision number. -/
inductive Binary64 where
  /-- The number `mantissa * 2 ^ exponent`, with its sign. -/
  | finite (negative : Bool) (mantissa : Nat) (exponent : Int)
  | infinite (negative : Bool)
  | nan
  deriving DecidableEq, Repr, Inhabited

namespace Binary64

/-! ## Ratios -/

/-- A ratio of whole numbers. -/
structure Ratio where
  num : Nat
  den : Nat

namespace Ratio

/-- The ratio times a power of a base. -/
def scale (r : Ratio) (base : Nat) (exponent : Int) : Ratio :=
  match exponent with
  | .ofNat n => ⟨r.num * Nat.pow base n, r.den⟩
  | .negSucc n => ⟨r.num, r.den * Nat.pow base (n + 1)⟩

/-- Whether the first ratio is below the second. -/
def lt (r s : Ratio) : Bool :=
  r.num * s.den < s.num * r.den

/-- Whether the first ratio is not above the second. -/
def le (r s : Ratio) : Bool :=
  r.num * s.den ≤ s.num * r.den

/-- The nearest whole number, and the larger one of two that are equally near. -/
def roundUp (r : Ratio) : Nat :=
  (2 * r.num + r.den) / (2 * r.den)

/-- The nearest whole number, and the even one of two that are equally near. -/
def round (r : Ratio) : Nat :=
  let quotient := r.num / r.den
  let twice := 2 * (r.num % r.den)
  if twice < r.den then quotient
  else if r.den < twice then quotient + 1
  else quotient + quotient % 2

/-- The exponent of the power of ten at or below a ratio that is not zero. -/
def decimalExponent (r : Ratio) : Int :=
  if r.den ≤ r.num then ((Nat.toDigits 10 (r.num / r.den)).length : Int) - 1
  else
    let digits := (Nat.toDigits 10 (r.den / r.num)).length
    if r.den ≤ r.num * Nat.pow 10 (digits - 1) then 1 - (digits : Int) else -(digits : Int)

end Ratio

/-! ## Reading -/

/-- The least exponent of a double. -/
def leastExponent : Int :=
  -1074

/-- The exponent at which a ratio other than zero has 53 binary digits before the point, unless the
least exponent is reached first. -/
def exponentOf (r : Ratio) : Int :=
  let guess : Int := (Nat.log2 r.num : Int) - Nat.log2 r.den - 53
  let exponent := if (r.scale 2 (-guess)).lt ⟨Nat.pow 2 53, 1⟩ then guess else guess + 1
  max leastExponent exponent

/-- The double nearest to `digits * 10 ^ exponent`. -/
def ofDecimal (negative : Bool) (digits : Nat) (exponent : Int) : Binary64 :=
  if digits = 0 then finite negative 0 leastExponent
  else if 400 < (Nat.toDigits 10 digits).length + exponent then infinite negative
  else if (Nat.toDigits 10 digits).length + exponent < -400 then finite negative 0 leastExponent
  else
    let r := Ratio.scale ⟨digits, 1⟩ 10 exponent
    let q := exponentOf r
    let m := (r.scale 2 (-q)).round
    if m = Nat.pow 2 53 then
      if q = 971 then infinite negative else finite negative (Nat.pow 2 52) (q + 1)
    else if 971 < q then infinite negative
    else finite negative m q

/-- Whether the number is zero. -/
def isZero : Binary64 → Bool
  | finite _ mantissa _ => mantissa = 0
  | _ => false

/-! ## Writing -/

/-- The candidate with `n` digits: a whole number and the power of ten it is multiplied by. It must
lie between the two bounds, or on one of them if `inclusive`. Of two candidates the nearer one is
taken, and the larger one if both are equally near. -/
def candidate? (value low high : Ratio) (inclusive : Bool) (top : Int) (n : Nat) :
    Option (Nat × Int) :=
  let unit := top - (n : Int) + 1
  let scaled := value.scale 10 (-unit)
  let below := scaled.num / scaled.den
  let fits (c : Nat) : Bool :=
    let r := Ratio.scale ⟨c, 1⟩ 10 unit
    if inclusive then low.le r && r.le high else low.lt r && r.lt high
  let nearest := scaled.roundUp
  let other := if nearest = below then below + 1 else below
  if fits nearest then some (nearest, unit)
  else if fits other then some (other, unit)
  else none

/-- The fewest decimal digits that are read back as the number `mantissa * 2 ^ exponent`, and the
power of ten they are multiplied by. -/
def shortest (mantissa : Nat) (exponent : Int) : Nat × Int :=
  let value := Ratio.scale ⟨mantissa, 1⟩ 2 exponent
  let lowQuarters :=
    if mantissa = Nat.pow 2 52 ∧ exponent ≠ leastExponent then 4 * mantissa - 1
    else 4 * mantissa - 2
  let low := Ratio.scale ⟨lowQuarters, 4⟩ 2 exponent
  let high := Ratio.scale ⟨4 * mantissa + 2, 4⟩ 2 exponent
  let top := value.decimalExponent
  ((List.range' 1 17).findSome? (candidate? value low high (mantissa % 2 = 0) top)).getD (mantissa, 0)

/-- Digits times a power of ten, written without an exponent. -/
def positional (digits : Nat) (exponent : Int) : String :=
  let ds := Nat.toDigits 10 digits
  match exponent with
  | .ofNat n => String.ofList (ds ++ List.replicate n '0')
  | .negSucc n =>
    let places := n + 1
    let padded := List.replicate (places + 1 - ds.length) '0' ++ ds
    let whole := padded.take (padded.length - places)
    let fraction := (padded.drop (padded.length - places)).reverse.dropWhile (· = '0')
    if fraction.isEmpty then String.ofList whole
    else String.ofList (whole ++ ['.'] ++ fraction.reverse)

/-- The text of a number: the fewest digits that are read back, without an exponent. -/
def text : Binary64 → String
  | nan => "NaN"
  | infinite negative => if negative then "-inf" else "inf"
  | finite negative mantissa exponent =>
    let (digits, power) := if mantissa = 0 then (0, 0) else shortest mantissa exponent
    (if negative then "-" else "") ++ positional digits power

/-- The text of a number that always shows that it need not be whole. -/
def textWithPoint (x : Binary64) : String :=
  match x with
  | finite _ _ _ =>
    let text := x.text
    if text.toList.contains '.' then text else text ++ ".0"
  | _ => x.text

end Binary64

end Keybind
