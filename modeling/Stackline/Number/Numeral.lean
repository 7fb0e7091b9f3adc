import Stackline.Number.Digits
import Stackline.Text.Blank

/-!
# Numerals at the start of a text

A text is read as a number by its longest beginning that is a numeral; what follows is ignored.
Blanks in front are skipped. An integer is a sign and digits, and has to fit 64 bits before its
sign is taken into account. A decimal has an optional fraction and an optional exponent; it is
rounded to the nearest double.
-/

namespace Stackline.Number

open Text

/-- The integer at the start of a text. Its magnitude is at most `2 ^ 63 - 1`, whatever the
sign. -/
def integerPrefix (cs : List Char) : Option Int64 :=
  let (negative, rest) := spanSign (trimStart cs)
  let digits := (spanDigits rest).1
  if digits.isEmpty then none
  else
    let n := natOf digits
    if (n : Int) ≤ Int64.maxValue.toInt then some (.ofInt (if negative then -n else n)) else none

/-- A decimal numeral: `whole.fraction * 10 ^ exponent` with a sign. -/
structure Numeral where
  negative : Bool
  whole : List Char
  fraction : List Char
  exponent : Int
  deriving DecidableEq, Repr

/-- A point and the digits after it. -/
def spanFraction : List Char → List Char × List Char
  | c :: cs => if c = '.' then spanDigits cs else ([], c :: cs)
  | [] => ([], [])

/-- The digits before and after the point at the start of a text, and the rest. -/
def spanMantissa (cs : List Char) : List Char × List Char × List Char :=
  let (whole, rest) := spanDigits cs
  let (fraction, rest) := spanFraction rest
  (whole, fraction, rest)

/-- The exponent that a whole text writes: a mark, an optional sign and at least one digit. Where
there is no text the exponent is zero. -/
def exponent? : List Char → Option Int
  | [] => some 0
  | c :: cs =>
    if c = 'e' ∨ c = 'E' then
      let (negative, rest) := spanSign cs
      let (digits, rest) := spanDigits rest
      if digits.isEmpty || !rest.isEmpty then none
      else some (if negative then -natOf digits else natOf digits)
    else none

/-- The numeral that a whole text writes. -/
def Numeral.ofText? (cs : List Char) : Option Numeral :=
  let (negative, rest) := spanSign cs
  let (whole, fraction, rest) := spanMantissa rest
  if whole.isEmpty && fraction.isEmpty then none
  else (exponent? rest).map fun exponent => ⟨negative, whole, fraction, exponent⟩

/-- The double nearest to `n * 10 ^ e`. Numbers beyond `10 ^ 400` are infinite and numbers below
`10 ^ -400` are zero, so that no great power is ever computed for them. -/
def nearestDouble (n : Nat) (e : Int) : Float :=
  let places := (digitCount n : Int) + e
  if n = 0 then 0
  else if 400 < places then .ofBits 0x7ff0000000000000
  else if places < -400 then 0
  else .ofScientific n (e < 0) e.natAbs

/-- The double nearest to a numeral. -/
def Numeral.toFloat (n : Numeral) : Float :=
  let magnitude := nearestDouble (natOf (n.whole ++ n.fraction)) (n.exponent - n.fraction.length)
  if n.negative then -magnitude else magnitude

/-- The double nearest to the decimal that a whole text writes. -/
def readDecimal? (cs : List Char) : Option Float := (Numeral.ofText? cs).map Numeral.toFloat

/-! ### The longest numeral -/

/-- What follows an exponent at the start of a text. A mark that no digit follows, be it after a
sign, is none. -/
def skipExponent : List Char → List Char
  | [] => []
  | c :: cs =>
    if c = 'e' ∨ c = 'E' then
      let (digits, rest) := spanDigits (spanSign cs).2
      if digits.isEmpty then c :: cs else rest
    else c :: cs

/-- What follows the longest numeral at the start of a text. -/
def skipNumeral? (cs : List Char) : Option (List Char) :=
  let (whole, fraction, rest) := spanMantissa (spanSign cs).2
  if whole.isEmpty && fraction.isEmpty then none else some (skipExponent rest)

/-- A text without the points at its end. -/
def dropPoints (cs : List Char) : List Char := (cs.reverse.dropWhile (· = '.')).reverse

/-- The longest numeral at the start of a text, without a point at its end. -/
def numeralText? (cs : List Char) : Option (List Char) :=
  let start := trimStart cs
  (skipNumeral? start).map fun rest => dropPoints (start.take (start.length - rest.length))

/-- The decimal at the start of a text, rounded to the nearest double. -/
def decimalPrefix (cs : List Char) : Option Float := (numeralText? cs).bind readDecimal?

end Stackline.Number
