/-!
# Ranges of code points

A class of characters is kept as a list of closed ranges in ascending order.
-/

namespace Keybind.Text.Ranges

/-- Membership in an ascending list of closed ranges. -/
def contains : List (Nat × Nat) → Nat → Bool
  | [], _ => false
  | (lo, hi) :: ranges, n => if n < lo then false else n ≤ hi || contains ranges n

end Keybind.Text.Ranges
