/-!
# Sets of code points

A property of characters is stored as the ascending list of all code points at
which it switches, on at the first one, off at the second, and so on.
-/

namespace MaximalMunch

/-- A set of code points, given by the places where membership changes. -/
structure CodePoints where
  switches : Array Nat

namespace CodePoints

/-- A code point is a member when an odd number of switches lie at or below
it. -/
def contains (points : CodePoints) (point : Nat) : Bool :=
  points.switches.countP (· ≤ point) % 2 == 1

end CodePoints

end MaximalMunch
