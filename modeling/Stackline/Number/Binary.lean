/-!
# Doubles as exact numbers

A double is a signed multiple of a power of two, an infinity or no number at all. `Binary` names
these cases, and what has to be exact (the integer part, the test for whole numbers, the remainder)
is computed on them in natural numbers.
-/

namespace Stackline.Number

/-- What a double stands for: `finite s m q` is `m * 2 ^ q`, negated if `s`. -/
inductive Binary where
  | nan
  | infinite (negative : Bool)
  | finite (negative : Bool) (mantissa : Nat) (exponent : Int)
  deriving DecidableEq, Repr

namespace Binary

/-- Bits of the fraction field. -/
def fractionBits : Nat := 52

/-- The exponent of the last place of the smallest doubles. -/
def leastExponent : Int := -1074

/-- The meaning of a double, read off its sign, exponent and fraction fields. -/
def ofFloat (x : Float) : Binary :=
  let bits := x.toBits.toNat
  let negative := Nat.pow 2 63 ≤ bits
  let field : Nat := bits / Nat.pow 2 fractionBits % Nat.pow 2 11
  let fraction := bits % Nat.pow 2 fractionBits
  if field = 2047 then
    if fraction = 0 then .infinite negative else .nan
  else if field = 0 then
    .finite negative fraction leastExponent
  else
    .finite negative (Nat.pow 2 fractionBits + fraction) ((field : Int) - 1 + leastExponent)

/-- `m * 2 ^ q` without its fraction. -/
def floorScale (m : Nat) (q : Int) : Nat :=
  if 0 ≤ q then m * Nat.pow 2 q.toNat else m / Nat.pow 2 (-q).toNat

/-- Whether `m * 2 ^ q` is a whole number. -/
def wholeScale (m : Nat) (q : Int) : Bool :=
  0 ≤ q || m % Nat.pow 2 (-q).toNat = 0

/-- The double `m * 2 ^ q`, negated if `negative`, when there is one: the mantissa is shifted to
53 places, or as far as the least exponent allows, which drops no bit of such a number. -/
def encode (negative : Bool) (m : Nat) (q : Int) : Float :=
  let shift := max ((m.log2 : Int) - fractionBits) (leastExponent - q)
  let mantissa := floorScale m (-shift)
  let magnitude :=
    if mantissa < Nat.pow 2 fractionBits then mantissa
    else (q + shift - leastExponent).toNat * Nat.pow 2 fractionBits + mantissa
  .ofBits (.ofNat (if negative then Nat.pow 2 63 + magnitude else magnitude))

end Binary

/-- The double that is no number. -/
def notANumber : Float := .ofBits 0x7ff8000000000000

/-- The integer part of a finite double. -/
def integerPart? (x : Float) : Option Int :=
  match Binary.ofFloat x with
  | .finite negative m q =>
    let n : Int := Binary.floorScale m q
    some (if negative then -n else n)
  | _ => none

/-- Whether a double is finite and has no fraction. -/
def isWhole (x : Float) : Bool :=
  match Binary.ofFloat x with
  | .finite _ m q => Binary.wholeScale m q
  | _ => false

/-- The exact remainder of the quotient rounded toward zero. It has the sign of the dividend; a
finite dividend is its own remainder by an infinity, and there is no remainder by zero or of an
infinity. -/
def remainder (x y : Float) : Float :=
  match Binary.ofFloat x, Binary.ofFloat y with
  | .finite negative m q, .finite _ n r =>
    if n = 0 then notANumber
    else
      let least := min q r
      let a := m * Nat.pow 2 (q - least).toNat
      let b := n * Nat.pow 2 (r - least).toNat
      Binary.encode negative (a % b) least
  | .finite .., .infinite _ => x
  | _, _ => notANumber

end Stackline.Number
