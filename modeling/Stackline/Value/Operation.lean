import Stackline.Value.Basic

/-!
# Operations on values

Arithmetic on two integers is exact: a result that does not fit 64 bits is computed in doubles
instead. Division always gives a double. A text is added to any value by joining what they print.
Numbers are compared with numbers and texts with texts; everything may be tested for equality.
Conversions never fail, and give null for what they cannot convert.
-/

namespace Stackline

/-- The operations on two values. -/
inductive BinaryOp where
  | add | subtract | multiply | divide | modulus
  | equal | less | more | lessEqual | moreEqual
  deriving DecidableEq, Repr

/-- The operations on one value. -/
inductive UnaryOp where
  | increment | decrement
  | makeInt | makeFloat | makeString | ord | chr
  deriving DecidableEq, Repr

/-- The name of an operation in messages. -/
def BinaryOp.name : BinaryOp → String
  | .add => "ADD"
  | .subtract => "SUB"
  | .multiply => "MUL"
  | .divide => "DIV"
  | .modulus => "MOD"
  | .equal => "EQ"
  | .less => "LESS"
  | .more => "MORE"
  | .lessEqual => "LESSEQ"
  | .moreEqual => "MOREEQ"

/-- Two values that an operation does not take. -/
structure Mismatch where
  op : BinaryOp
  left : Value
  right : Value
  deriving DecidableEq

/-- The operation and its operands. -/
def Mismatch.message (m : Mismatch) : String :=
  m.op.name ++ " " ++ m.left.inspect ++ " " ++ m.right.inspect

namespace Value

open Number

/-- The integer `n` if it fits 64 bits, and the double `x` otherwise. -/
def fitOr (n : Int) (x : Float) : Value :=
  if Int64.minValue.toInt ≤ n ∧ n ≤ Int64.maxValue.toInt then integer (.ofInt n) else float x

/-- An operation on two numbers as doubles. -/
def onFloats (op : BinaryOp) (f : Float → Float → Float) (l r : Value) : Except Mismatch Value :=
  match l.toFloat?, r.toFloat? with
  | some x, some y => .ok (float (f x y))
  | _, _ => .error ⟨op, l, r⟩

/-- The sum of two numbers, or the joined texts if one value is a text. -/
def add (l r : Value) : Except Mismatch Value :=
  match l, r with
  | integer m, integer n => .ok (fitOr (m.toInt + n.toInt) (floatOf m + floatOf n))
  | text s, v => .ok (text (s ++ v.display))
  | v, text s => .ok (text (v.display ++ s))
  | l, r => onFloats .add (· + ·) l r

/-- The difference of two numbers. -/
def subtract (l r : Value) : Except Mismatch Value :=
  match l, r with
  | integer m, integer n => .ok (fitOr (m.toInt - n.toInt) (floatOf m - floatOf n))
  | l, r => onFloats .subtract (· - ·) l r

/-- The product of two numbers. -/
def multiply (l r : Value) : Except Mismatch Value :=
  match l, r with
  | integer m, integer n => .ok (fitOr (m.toInt * n.toInt) (floatOf m * floatOf n))
  | l, r => onFloats .multiply (· * ·) l r

/-- The quotient of two numbers, always a double. -/
def divide (l r : Value) : Except Mismatch Value := onFloats .divide (· / ·) l r

/-- Whether the quotient of two integers is an integer of 64 bits. -/
def dividesInRange (m n : Int64) : Bool := n ≠ 0 && !(m = Int64.minValue && n = -1)

/-- The remainder of two numbers, with the sign of the dividend. Integers whose quotient is none
are divided as doubles. -/
def modulus (l r : Value) : Except Mismatch Value :=
  match l, r with
  | integer m, integer n =>
    if dividesInRange m n then .ok (integer (.ofInt (m.toInt.tmod n.toInt)))
    else .ok (float (remainder (floatOf m) (floatOf n)))
  | l, r => onFloats .modulus remainder l r

/-- Whether two values are equal. An integer and a double are equal as doubles. -/
def equal (l r : Value) : Bool :=
  match l, r with
  | integer m, integer n => m = n
  | text s, text t => s = t
  | null, null => true
  | l, r =>
    match l.toFloat?, r.toFloat? with
    | some x, some y => x == y
    | _, _ => false

/-- How two values compare. -/
inductive Comparison where
  | ordered (o : Ordering)
  /-- One of two numbers is not a number. -/
  | unordered
  /-- The values are of kinds that have no order. -/
  | mismatched
  deriving DecidableEq, Repr

/-- The order of two integers. -/
def compareIntegers (m n : Int64) : Ordering :=
  if m < n then .lt else if m = n then .eq else .gt

/-- The order of two sequences of bytes by their first different bytes. What goes on after the other
has ended is the greater. -/
def compareBytes : List UInt8 → List UInt8 → Ordering
  | [], [] => .eq
  | [], _ :: _ => .lt
  | _ :: _, [] => .gt
  | a :: as, b :: bs =>
    if a.toNat < b.toNat then .lt else if b.toNat < a.toNat then .gt else compareBytes as bs

/-- The order of two texts by their bytes in UTF-8. -/
def compareTexts (s t : String) : Ordering :=
  compareBytes s.toUTF8.data.toList t.toUTF8.data.toList

/-- The order of two doubles. -/
def compareFloats (x y : Float) : Comparison :=
  if x < y then .ordered .lt
  else if x == y then .ordered .eq
  else if y < x then .ordered .gt
  else .unordered

/-- Integers compare exactly, other numbers as doubles, and texts by their bytes. -/
def compare (l r : Value) : Comparison :=
  match l, r with
  | integer m, integer n => .ordered (compareIntegers m n)
  | text s, text t => .ordered (compareTexts s t)
  | l, r =>
    match l.toFloat?, r.toFloat? with
    | some x, some y => compareFloats x y
    | _, _ => .mismatched

/-- Whether the order of two values passes a test. What is not a number passes none. -/
def ordering (op : BinaryOp) (test : Ordering → Bool) (l r : Value) : Except Mismatch Value :=
  match compare l r with
  | .ordered o => .ok (ofBool (test o))
  | .unordered => .ok (ofBool false)
  | .mismatched => .error ⟨op, l, r⟩

/-- The first character of a text as a number. -/
def ord : Value → Value
  | text s =>
    match s.toList with
    | c :: _ => integer (.ofNat c.toNat)
    | [] => null
  | _ => null

/-- The text of one character with the code point `n`. -/
def ofCodePoint (n : Int64) : Value :=
  if 0 ≤ n.toInt ∧ n.toInt.toNat.isValidChar then text (.singleton (.ofNat n.toInt.toNat))
  else null

/-- The character with a whole number as its code point. -/
def chr : Value → Value
  | integer n => ofCodePoint n
  | float x =>
    match integerPart? x with
    | some n => if isWhole x then ofCodePoint (.ofIntClamp n) else null
    | none => null
  | _ => null

/-- A value as an integer, or null. -/
def makeInt (v : Value) : Value :=
  match v.toInteger? with
  | some n => integer n
  | none => null

/-- A text as the decimal at its start, or null. Other values stay as they are. -/
def makeFloat : Value → Value
  | text s =>
    match decimalPrefix s.toList with
    | some x => float x
    | none => null
  | v => v

/-- What a value prints. -/
def makeString (v : Value) : Value := text v.display

end Value

/-- The result of an operation on two values. -/
def BinaryOp.apply : BinaryOp → Value → Value → Except Mismatch Value
  | .add => Value.add
  | .subtract => Value.subtract
  | .multiply => Value.multiply
  | .divide => Value.divide
  | .modulus => Value.modulus
  | .equal => fun l r => .ok (.ofBool (l.equal r))
  | .less => Value.ordering .less (· == .lt)
  | .more => Value.ordering .more (· == .gt)
  | .lessEqual => Value.ordering .lessEqual (· != .gt)
  | .moreEqual => Value.ordering .moreEqual (· != .lt)

/-- The result of an operation on one value. -/
def UnaryOp.apply : UnaryOp → Value → Except Mismatch Value
  | .increment, v => v.add (.integer 1)
  | .decrement, v => v.subtract (.integer 1)
  | .makeInt, v => .ok v.makeInt
  | .makeFloat, v => .ok v.makeFloat
  | .makeString, v => .ok v.makeString
  | .ord, v => .ok v.ord
  | .chr, v => .ok v.chr

end Stackline
