import Stackline.Number.Layout
import Stackline.Number.Numeral
import Stackline.Text.Quoted

/-!
# Values

What the stacks hold: 64-bit integers, doubles, texts and null. Truth is the integer one and
falsehood the integer zero. A value has two written forms: `Value.display` is what a program
prints, and `Value.inspect` is what messages about the program show.
-/

namespace Stackline

/-- An entry of the operand or the register stack. -/
inductive Value where
  | integer (n : Int64)
  | float (x : Float)
  | text (s : String)
  | null
  deriving DecidableEq

namespace Value

open Number

instance : Inhabited Value := ⟨null⟩

/-- Truth values are integers. -/
def ofBool (b : Bool) : Value := integer (if b then 1 else 0)

/-- Whether a value is null. -/
def isNull : Value → Bool
  | null => true
  | _ => false

/-- The double nearest to an integer. -/
def floatOf (n : Int64) : Float := .ofInt n.toInt

/-- A number as a double. Texts and null are no numbers. -/
def toFloat? : Value → Option Float
  | integer n => some (floatOf n)
  | float x => some x
  | text _ => none
  | null => none

/-- A value as an integer: a finite double without its fraction, and at most as far from zero as an
integer can be; a text by the integer at its start. -/
def toInteger? : Value → Option Int64
  | integer n => some n
  | float x => (integerPart? x).map Int64.ofIntClamp
  | text s => integerPrefix s.toList
  | null => none

/-- Printed doubles have no exponent from `10 ^ -6` up to `10 ^ 21`, show a whole number without a
fraction and zero without a sign, and sign every exponent. -/
def printedLayout : Layout where
  leastPoint := -5
  greatestPoint := 21
  keepsFraction := false
  signsExponent := true
  signsZero := false
  infinity := "Infinity"

/-- Inspected doubles have no exponent from `10 ^ -4` up to `10 ^ 16`, always show a fraction there,
and keep the sign of zero. -/
def inspectedLayout : Layout where
  leastPoint := -3
  greatestPoint := 16
  keepsFraction := true
  signsExponent := false
  signsZero := true
  infinity := "inf"

/-- An integer in decimal. -/
def integerText (n : Int64) : String := toString n.toInt

/-- A value as a program prints it. -/
def display : Value → String
  | integer n => integerText n
  | float x => .ofList (printedLayout.render x)
  | text s => s
  | null => "null"

/-- A value as messages show it. -/
def inspect : Value → String
  | integer n => "Integer(" ++ integerText n ++ ")"
  | float x => "Float(" ++ .ofList (inspectedLayout.render x) ++ ")"
  | text s => "Text(" ++ Text.quoted s ++ ")"
  | null => "Null"

/-- A list of values as messages show it. -/
def inspectAll (vs : List Value) : String := Text.bracketed (vs.map inspect)

end Value

end Stackline
