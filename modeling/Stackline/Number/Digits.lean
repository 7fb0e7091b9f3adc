/-!
# Decimal digits

Natural numbers and the ASCII digits that write them.
-/

namespace Stackline.Number

/-- The digits of a natural number. -/
def digitsOf (n : Nat) : List Char := Nat.toDigits 10 n

/-- The number written by digits. -/
def natOf (digits : List Char) : Nat := Nat.ofDigitChars 10 digits 0

/-- Reading the digits of a number gives the number. -/
@[simp] theorem natOf_digitsOf (n : Nat) : natOf (digitsOf n) = n := Nat.ofDigitChars_ten_toDigits

/-- The digits at the start of a text, and the rest. -/
def spanDigits (cs : List Char) : List Char × List Char := cs.span Char.isDigit

/-- An optional sign at the start of a text, true for a minus, and the rest. -/
def spanSign : List Char → Bool × List Char
  | c :: cs => if c = '-' then (true, cs) else if c = '+' then (false, cs) else (false, c :: cs)
  | [] => (false, [])

/-- How many decimal digits a natural number has; zero has none. -/
def digitCount (n : Nat) : Nat :=
  if n = 0 then 0 else digitCount (n / 10) + 1

/-- A number without its final zeros. -/
def dropZeros (n : Nat) : Nat :=
  if n ≠ 0 ∧ n % 10 = 0 then dropZeros (n / 10) else n
termination_by n
decreasing_by omega

end Stackline.Number
