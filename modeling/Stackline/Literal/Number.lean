import Stackline.Literal.Malformed
import Stackline.Number.Digits
import Stackline.Value.Basic

/-!
# Numbers in literals

A number without fraction and exponent is an integer if it fits 64 bits, and a double otherwise.
Every other number is a double: its first digits form a significand of at most 64 bits, the digits
that no longer fit only move the point, and the significand is scaled by a power of ten in double
arithmetic. So a long number may be one place off the nearest double. A number too large for a
double is refused.
-/

namespace Stackline.Literal

open Stackline.Number

/-- Append digits to a significand while it stays below `2 ^ 64`. Returns it with the number of
digits that were left over. -/
def gather (significand : Nat) : List Char → Nat × Nat
  | [] => (significand, 0)
  | d :: ds =>
    let next := 10 * significand + (d.toNat - '0'.toNat)
    if next < UInt64.size then gather next ds else (significand, ds.length + 1)

/-- The double nearest to `10 ^ n`. -/
def powerOfTen (n : Nat) : Float := .ofScientific 1 false n

/-- `x * 10 ^ e` in double arithmetic, where an exponent below `-308` is applied in parts. `none`
if it is too large. -/
def scale (x : Float) (e : Int) : Option Float :=
  if 0 ≤ e then
    if e ≤ 308 then
      let y := x * powerOfTen e.toNat
      if y.isInf then none else some y
    else if x == 0 then some x
    else none
  else if -308 ≤ e then some (x / powerOfTen (-e).toNat)
  else if x == 0 then some x
  else scale (x / powerOfTen 308) (e + 308)
termination_by (-e).toNat
decreasing_by omega

/-- The value of a number written with a fraction or an exponent, or with too many digits. -/
def scaled (negative : Bool) (significand : Nat) (e : Int) (rest : List Char) : Reading Value :=
  match scale (UInt64.ofNat significand).toFloat e with
  | some x => .ok (.float (if negative then -x else x), rest)
  | none => stopAt .numberTooLarge rest

/-- The greatest exponent that is kept, which is the greatest integer of 32 bits. -/
def greatestExponent : Nat := 2147483647

/-- Digits of an exponent, appended to `e`. If it exceeds the greatest exponent the rest after the
digit that does is returned. -/
def exponentDigits (e : Nat) : List Char → Except (List Char) (Nat × List Char)
  | [] => .ok (e, [])
  | c :: cs =>
    if c.isDigit then
      let next := 10 * e + (c.toNat - '0'.toNat)
      if next ≤ greatestExponent then exponentDigits next cs else .error cs
    else .ok (e, c :: cs)

/-- What follows the mark of an exponent. An exponent that is too great makes a number too large,
or zero if it is negative or if the significand is zero. -/
def exponent (negative : Bool) (significand : Nat) (e : Int) (cs : List Char) : Reading Value :=
  let (minus, digits) := spanSign cs
  match digits with
  | [] => stopAt .unfinishedValue []
  | c :: _ =>
    if c.isDigit then
      match exponentDigits 0 digits with
      | .ok (n, rest) => scaled negative significand (if minus then e - n else e + n) rest
      | .error rest =>
        if significand ≠ 0 ∧ !minus then stopAt .numberTooLarge rest
        else .ok (.float (if negative then -0.0 else 0.0), (spanDigits rest).2)
    else stopIn .invalidNumber digits

/-- An optional exponent after the digits of a number with a fraction. -/
def afterFraction (negative : Bool) (significand : Nat) (e : Int) (cs : List Char) :
    Reading Value :=
  match cs with
  | [] => scaled negative significand e []
  | c :: rest =>
    if c = 'e' ∨ c = 'E' then exponent negative significand e rest
    else scaled negative significand e cs

/-- The digits after the point, of which there is at least one. -/
def fraction (negative : Bool) (significand : Nat) (e : Int) (cs : List Char) : Reading Value :=
  let (digits, rest) := spanDigits cs
  if digits.isEmpty then
    stopIn (if rest.isEmpty then .unfinishedValue else .invalidNumber) rest
  else
    let (significand, left) := gather significand digits
    afterFraction negative significand (e - (digits.length - left : Nat)) rest

/-- A number without fraction and exponent whose digits all fit. -/
def whole (negative : Bool) (n : Nat) : Value :=
  if negative then
    if 1 ≤ n ∧ Int64.minValue.toInt ≤ -n then .integer (.ofInt (-n))
    else .float (-(UInt64.ofNat n).toFloat)
  else
    if (n : Int) ≤ Int64.maxValue.toInt then .integer (.ofInt n)
    else .float (UInt64.ofNat n).toFloat

/-- A number that ends after the digits before the point, `left` of which did not fit the
significand. -/
def withoutPoint (negative : Bool) (significand left : Nat) (rest : List Char) : Reading Value :=
  if left = 0 then .ok (whole negative significand, rest)
  else scaled negative significand left rest

/-- What follows the digits before the point, `left` of which did not fit the significand. -/
def afterWhole (negative : Bool) (significand left : Nat) (cs : List Char) : Reading Value :=
  match cs with
  | [] => withoutPoint negative significand left []
  | c :: rest =>
    if c = '.' then fraction negative significand left rest
    else if c = 'e' ∨ c = 'E' then exponent negative significand left rest
    else withoutPoint negative significand left cs

/-- A number after its sign. A zero is not followed by further digits. -/
def number (negative : Bool) (cs : List Char) : Reading Value :=
  match cs with
  | [] => stopAt .unfinishedValue []
  | c :: rest =>
    if c = '0' then
      match rest with
      | d :: _ => if d.isDigit then stopIn .invalidNumber rest else afterWhole negative 0 0 rest
      | [] => afterWhole negative 0 0 rest
    else if c.isDigit then
      let (digits, rest) := spanDigits cs
      let (significand, left) := gather 0 digits
      afterWhole negative significand left rest
    else stopIn .invalidNumber cs

end Stackline.Literal
