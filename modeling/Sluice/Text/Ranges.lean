/-!
# Sets of characters as ranges

A property of characters is a list of closed ranges of code points, ascending and apart.
-/
namespace Sluice.Text

/-- Closed ranges of code points, in ascending order. -/
abbrev Ranges := List (Nat × Nat)

/-- A code point is in one of the ranges. The search ends at the first range above it. -/
def Ranges.memCode : Ranges → Nat → Bool
  | [], _ => false
  | (lo, hi) :: rest, n =>
      if n < lo then false else if n ≤ hi then true else Ranges.memCode rest n

/-- A character is in one of the ranges. -/
def Ranges.mem (r : Ranges) (c : Char) : Bool :=
  r.memCode c.toNat

end Sluice.Text
