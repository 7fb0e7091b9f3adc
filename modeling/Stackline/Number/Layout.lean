import Stackline.Number.Shortest

/-!
# Writing a double

The digits of a double are its shortest decimal; where the point stands and when an exponent is
written is a matter of layout. A `Layout` records these decisions, and `Layout.render` carries them
out. The two layouts of this library are with the values that use them.
-/

namespace Stackline.Number

/-- The decisions in writing a double. -/
structure Layout where
  /-- From this position of the point on the number is written without an exponent. -/
  leastPoint : Int
  /-- Up to this position of the point the number is written without an exponent. -/
  greatestPoint : Int
  /-- Whether a whole number is written with the fraction `.0`. -/
  keepsFraction : Bool
  /-- Whether an exponent that is not negative has a plus sign. -/
  signsExponent : Bool
  /-- Whether the negative zero has its sign. -/
  signsZero : Bool
  /-- What stands for an infinity, after the sign of the negative one. -/
  infinity : String
  deriving DecidableEq, Repr

/-- Digits with the point after `point` of them, filled up with zeros on either side. -/
def positional (keepsFraction : Bool) (digits : List Char) (point : Int) : List Char :=
  if point ≤ 0 then
    '0' :: '.' :: (List.replicate (-point).toNat '0' ++ digits)
  else
    let whole := point.toNat
    if digits.length ≤ whole then
      digits ++ List.replicate (whole - digits.length) '0' ++
        (if keepsFraction then ['.', '0'] else [])
    else
      digits.take whole ++ '.' :: digits.drop whole

/-- One digit, the others as its fraction, and the exponent. -/
def scientific (signsExponent : Bool) (digits : List Char) (point : Int) : List Char :=
  let fraction := digits.drop 1
  let exponent := point - 1
  digits.take 1 ++ (if fraction.isEmpty then [] else '.' :: fraction) ++
    'e' :: ((if exponent < 0 then ['-'] else if signsExponent then ['+'] else []) ++
      digitsOf exponent.natAbs)

/-- A positive decimal as the layout writes it. -/
def Layout.decimal (l : Layout) (d : Decimal) : List Char :=
  if l.leastPoint ≤ d.point ∧ d.point ≤ l.greatestPoint then
    positional l.keepsFraction (digitsOf d.digits) d.point
  else
    scientific l.signsExponent (digitsOf d.digits) d.point

/-- A double as the layout writes it. -/
def Layout.render (l : Layout) (x : Float) : List Char :=
  match Binary.ofFloat x with
  | .nan => ['N', 'a', 'N']
  | .infinite negative => (if negative then ['-'] else []) ++ l.infinity.toList
  | .finite negative m q =>
    if m = 0 then
      (if negative && l.signsZero then ['-'] else []) ++ positional l.keepsFraction ['0'] 1
    else
      (if negative then ['-'] else []) ++ l.decimal (shortest m q)

end Stackline.Number
