/-!
# Physical lines

A line ends at a newline. A carriage return right before the newline belongs to the end of the
line. What stands after the last newline is a line if there is anything, and keeps its carriage
return.
-/

namespace Stackline.Text

/-- A text without one final carriage return, given in reverse and returned in order. -/
def withoutReturn : List Char → List Char
  | '\r' :: cs => cs.reverse
  | cs => cs.reverse

/-- The lines of a text, of which the first begins with the reverse of `gathered`. -/
def linesFrom (gathered : List Char) : List Char → List (List Char)
  | [] => if gathered.isEmpty then [] else [gathered.reverse]
  | c :: cs =>
    if c = '\n' then withoutReturn gathered :: linesFrom [] cs else linesFrom (c :: gathered) cs

/-- The lines of a text. -/
def lines (cs : List Char) : List (List Char) := linesFrom [] cs

end Stackline.Text
