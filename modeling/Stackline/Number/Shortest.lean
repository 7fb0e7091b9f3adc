import Stackline.Number.Binary
import Stackline.Number.Digits

/-!
# The fewest digits that read back

A double is the nearest double to every number of an interval around it. `shortest` finds the
decimal with the fewest digits in that interval: grids of one, two and up to seventeen digits are
tried in turn, and on each grid the two neighbours of the number. Of two neighbours in the
interval the nearer is taken, and on a tie the greater.
-/

namespace Stackline.Number

/-- A positive decimal `0.d₁d₂… * 10 ^ point`, where `digits` is the number `d₁d₂…`. -/
structure Decimal where
  digits : Nat
  point : Int
  deriving DecidableEq, Repr

/-- An interval `[low, high]` around `mid`, each over the denominator `unit`. -/
structure Interval where
  low : Nat
  mid : Nat
  high : Nat
  unit : Nat
  /-- Whether the ends belong to the interval. -/
  closed : Bool
  deriving DecidableEq, Repr

namespace Interval

/-- The numbers that round to `m * 2 ^ q`: half the way to the doubles on either side, with the
ends if the mantissa is even. Below a power of two the doubles lie twice as close. -/
def around (m : Nat) (q : Int) : Interval :=
  let up := Nat.pow 2 (q - 2).toNat
  let below := if m = Nat.pow 2 Binary.fractionBits ∧ Binary.leastExponent < q then 1 else 2
  { low := (4 * m - below) * up
    mid := 4 * m * up
    high := (4 * m + 2) * up
    unit := Nat.pow 2 (2 - q).toNat
    closed := m % 2 = 0 }

/-- The interval measured in units of `10 ^ e`. -/
def inUnits (i : Interval) (e : Int) : Interval :=
  let shrink := Nat.pow 10 (-e).toNat
  { i with
    low := i.low * shrink
    mid := i.mid * shrink
    high := i.high * shrink
    unit := i.unit * Nat.pow 10 e.toNat }

/-- Whether the whole number `d` lies in the interval. -/
def holds (i : Interval) (d : Nat) : Bool :=
  if i.closed then i.low ≤ d * i.unit && d * i.unit ≤ i.high
  else i.low < d * i.unit && d * i.unit < i.high

/-- The whole number next to `mid` that lies in the interval, if one of the two does. -/
def nearest? (i : Interval) : Option Nat :=
  let d := i.mid / i.unit
  match i.holds d, i.holds (d + 1) with
  | true, true =>
    some (if i.mid - d * i.unit < (d + 1) * i.unit - i.mid then d else d + 1)
  | true, false => some d
  | false, true => some (d + 1)
  | false, false => none

/-- The `point` with `10 ^ (point - 1) ≤ mid < 10 ^ point`. -/
def point (i : Interval) : Int :=
  let whole := i.mid / i.unit
  if whole ≠ 0 then digitCount whole else 1 - digitCount ((i.unit - 1) / i.mid)

end Interval

/-- The decimal with the digits of `d`, the last of which stands for `10 ^ e`. -/
def Decimal.ofGrid (d : Nat) (e : Int) : Decimal :=
  ⟨dropZeros d, digitCount d + e⟩

/-- The first grid of at least `n` and at most `n + more` digits that meets the interval gives the
decimal. -/
def firstGrid (i : Interval) (point : Int) (n : Nat) : Nat → Decimal
  | 0 => .ofGrid ((i.inUnits (point - n)).mid / (i.inUnits (point - n)).unit) (point - n)
  | more + 1 =>
    match (i.inUnits (point - n)).nearest? with
    | some d => .ofGrid d (point - n)
    | none => firstGrid i point (n + 1) more

/-- The shortest decimal that reads back as the double `m * 2 ^ q`, for `0 < m`. Seventeen digits
always do. -/
def shortest (m : Nat) (q : Int) : Decimal :=
  let i := Interval.around m q
  firstGrid i i.point 1 17

end Stackline.Number
