/-!
# Tables of code points

A property of characters is a list of closed ranges of code points in ascending order, none of
which touch. `Ranges.contains` stops at the first range that lies above the code point, so the
characters of everyday text are found near the front.
-/

namespace Stackline.Text

/-- Closed ranges of code points, ascending and apart from each other. -/
abbrev Ranges := List (Nat × Nat)

namespace Ranges

/-- Whether the code point `n` lies in a range of the table. -/
def contains : Ranges → Nat → Bool
  | [], _ => false
  | (lo, hi) :: rest, n => if n < lo then false else if n ≤ hi then true else contains rest n

end Ranges

end Stackline.Text
