import Stackline.Value.Operation

/-!
# Arithmetic on integers

An operation on integers of 64 bits gives an integer only if that is what the same operation gives
on integers of any size: what does not fit goes on as a double and is never wrapped
(`BinaryOp.ideal_of_apply`).  A remainder always fits, and yet there is one pair of integers that
has none: the quotient of the least integer by minus one does not fit, and the remainder, which is
zero, is given up with it (`modulus_integers`).
-/

namespace Stackline

/-! ### Integers of any size -/

/-- An operation on two integers of any size.  They have no quotient among them, and there is no
remainder by zero. -/
def BinaryOp.ideal? : BinaryOp → Int → Int → Option Int
  | .add, l, r => some (l + r)
  | .subtract, l, r => some (l - r)
  | .multiply, l, r => some (l * r)
  | .divide, _, _ => none
  | .modulus, l, r => if r = 0 then none else some (l.tmod r)
  | .equal, l, r => some (if l = r then 1 else 0)
  | .less, l, r => some (if l < r then 1 else 0)
  | .more, l, r => some (if r < l then 1 else 0)
  | .lessEqual, l, r => some (if l ≤ r then 1 else 0)
  | .moreEqual, l, r => some (if r ≤ l then 1 else 0)

/-- An operation on one integer of any size.  Conversions are none. -/
def UnaryOp.ideal? : UnaryOp → Int → Option Int
  | .increment, n => some (n + 1)
  | .decrement, n => some (n - 1)
  | _, _ => none

namespace Value

open Number

variable {l r n : Int64} {x : Float} {k : Int}

/-- What is an integer has not been rounded or wrapped. -/
theorem toInt_of_fitOr (h : fitOr k x = integer n) : n.toInt = k := by
  unfold fitOr at h
  split at h
  · next hk =>
    rw [Int64.toInt_minValue, Int64.toInt_maxValue] at hk
    cases h
    exact Int64.toInt_ofInt_of_le hk.1 (by omega)
  · cases h

theorem onFloats_ne_integer (op : BinaryOp) (f : Float → Float → Float) (v w : Value) :
    onFloats op f v w ≠ .ok (integer n) := by
  unfold onFloats
  split <;> nofun

theorem toInt_of_ofBool {p : Prop} [Decidable p] (h : ofBool (decide p) = integer n) :
    n.toInt = if p then 1 else 0 := by
  by_cases hp : p
  · cases h
    simp [hp]
  · cases h
    simp [hp]

/-! ### Comparisons -/

/-- Integers are ordered as the numbers they stand for. -/
theorem compareIntegers_cases (l r : Int64) :
    l.toInt < r.toInt ∧ compareIntegers l r = .lt ∨
    l.toInt = r.toInt ∧ compareIntegers l r = .eq ∨
    r.toInt < l.toInt ∧ compareIntegers l r = .gt := by
  unfold compareIntegers
  simp only [Int64.lt_iff_toInt_lt, ← Int64.toInt_inj]
  split
  · next hlt => exact .inl ⟨hlt, rfl⟩
  · split
    · next heq => exact .inr (.inl ⟨heq, rfl⟩)
    · exact .inr (.inr ⟨by omega, rfl⟩)

/-! ### Remainders -/

theorem dividesInRange_iff :
    dividesInRange l r = true ↔ r ≠ 0 ∧ ¬ (l = Int64.minValue ∧ r = -1) := by
  simp only [dividesInRange, Bool.and_eq_true, decide_eq_true_eq, Bool.not_eq_true',
    Bool.and_eq_false_iff, decide_eq_false_iff_not, Decidable.not_and_iff_or_not]

/-- A remainder is no further from zero than the dividend, so it fits. -/
theorem toInt_ofInt_tmod (l r : Int64) :
    (Int64.ofInt (l.toInt.tmod r.toInt)).toInt = l.toInt.tmod r.toInt := by
  have hle := l.le_toInt
  have hlt := l.toInt_lt
  have habs := Nat.mod_le l.toInt.natAbs r.toInt.natAbs
  rw [← Int.natAbs_tmod] at habs
  by_cases hneg : l.toInt < 0
  · have hsign : l.toInt.tmod r.toInt ≤ 0 := by
      have h := Int.tmod_nonneg r.toInt (a := -l.toInt) (by omega)
      rw [Int.neg_tmod] at h
      omega
    exact Int64.toInt_ofInt_of_le (by omega) (by omega)
  · have hsign := Int.tmod_nonneg r.toInt (a := l.toInt) (by omega)
    exact Int64.toInt_ofInt_of_le (by omega) (by omega)

theorem modulus_of_inRange (h : dividesInRange l r = true) :
    modulus (integer l) (integer r) = .ok (integer (.ofInt (l.toInt.tmod r.toInt))) := by
  simp only [modulus, h, if_true]

theorem modulus_of_not_inRange (h : dividesInRange l r = false) :
    modulus (integer l) (integer r) = .ok (float (remainder (floatOf l) (floatOf r))) := by
  simp only [modulus, h, Bool.false_eq_true, if_false]

/-- `m` is what is left of `l` after it has been divided by `r` towards zero. -/
structure IsRemainder (l r m : Int) : Prop where
  quotient : ∃ q, l = q * r + m
  small : m.natAbs < r.natAbs
  sign : m = 0 ∨ m.sign = l.sign

theorem isRemainder_tmod (l : Int) {r : Int} (hr : r ≠ 0) : IsRemainder l r (l.tmod r) where
  quotient := ⟨l.tdiv r, (Int.tdiv_mul_add_tmod l r).symm⟩
  small := by
    rw [Int.natAbs_tmod]
    exact Nat.mod_lt _ (Int.natAbs_pos.mpr hr)
  sign := by
    have hsign := Int.sign_tmod l r
    split at hsign
    · exact .inl (Int.sign_eq_zero_iff_zero.mp hsign)
    · exact .inr hsign

/-- **The remainder of two integers.**  By any divisor but zero the remainder is the integer that is
left by a division towards zero, with one exception: the least integer and minus one are divided as
doubles. -/
theorem modulus_integers (l r : Int64) (hr : r ≠ 0) :
    (¬ (l = Int64.minValue ∧ r = -1) →
      ∃ m, modulus (integer l) (integer r) = .ok (integer m) ∧
        IsRemainder l.toInt r.toInt m.toInt) ∧
    (l = Int64.minValue ∧ r = -1 →
      modulus (integer l) (integer r) = .ok (float (remainder (floatOf l) (floatOf r)))) := by
  constructor
  · intro hne
    have hr' : r.toInt ≠ 0 := fun h => hr (Int64.toInt_inj.mp h)
    refine ⟨_, modulus_of_inRange (dividesInRange_iff.mpr ⟨hr, hne⟩), ?_⟩
    rw [toInt_ofInt_tmod]
    exact isRemainder_tmod l.toInt hr'
  · intro heq
    refine modulus_of_not_inRange (Bool.eq_false_iff.mpr fun h => ?_)
    exact (dividesInRange_iff.mp h).2 heq

/-- A negative dividend has a negative remainder. -/
theorem modulus_integers_negative :
    ∃ m, modulus (integer (-7)) (integer 3) = .ok (integer m) ∧ IsRemainder (-7) 3 m.toInt :=
  (modulus_integers (-7) 3 (by decide)).1 (by decide)

/-- The least integer leaves zero when it is divided by minus one, but that is not what it gives. -/
theorem modulus_minValue :
    (-1 : Int64) ≠ 0 ∧ IsRemainder Int64.minValue.toInt (-1 : Int64).toInt 0 ∧
    ∀ m, modulus (integer Int64.minValue) (integer (-1)) ≠ .ok (integer m) := by
  refine ⟨by decide, ⟨⟨-Int64.minValue.toInt, by decide⟩, by decide, .inl rfl⟩, fun m h => ?_⟩
  rw [modulus_of_not_inRange (by decide)] at h
  cases h

end Value

/-! ### Operations -/

/-- **An integer that an operation gives is exact.** -/
theorem BinaryOp.ideal_of_apply {op : BinaryOp} {l r n : Int64}
    (h : op.apply (.integer l) (.integer r) = .ok (.integer n)) :
    op.ideal? l.toInt r.toInt = some n.toInt := by
  have hfit {k : Int} {x : Float} (h : Except.ok (Value.fitOr k x) =
      (.ok (.integer n) : Except Mismatch Value)) : some k = some n.toInt :=
    congrArg some (Value.toInt_of_fitOr (Except.ok.inj h)).symm
  cases op with
  | add | subtract | multiply => exact hfit h
  | divide =>
    have h : Value.onFloats .divide (· / ·) (.integer l) (.integer r) = .ok (.integer n) := h
    exact absurd h (Value.onFloats_ne_integer _ _ _ _)
  | modulus =>
    have h : Value.modulus (.integer l) (.integer r) = .ok (.integer n) := h
    cases hin : Value.dividesInRange l r with
    | true =>
      have hr : r.toInt ≠ 0 := fun hr =>
        (Value.dividesInRange_iff.mp hin).1 (Int64.toInt_inj.mp hr)
      rw [Value.modulus_of_inRange hin] at h
      cases h
      rw [Value.toInt_ofInt_tmod]
      exact if_neg hr
    | false =>
      rw [Value.modulus_of_not_inRange hin] at h
      cases h
  | equal =>
    have hv : Value.ofBool (decide (l = r)) = .integer n := Except.ok.inj h
    simp only [Value.toInt_of_ofBool hv, BinaryOp.ideal?, Int64.toInt_inj]
  | less | more | lessEqual | moreEqual =>
    simp only [BinaryOp.apply, Value.ordering, Value.compare] at h
    rcases Value.compareIntegers_cases l r with ⟨hc, ho⟩ | ⟨hc, ho⟩ | ⟨hc, ho⟩
    all_goals
      rw [ho] at h
      cases h
      grind [BinaryOp.ideal?]

theorem UnaryOp.ideal_of_apply {op : UnaryOp} {m n : Int64}
    (hop : op = .increment ∨ op = .decrement)
    (h : op.apply (.integer m) = .ok (.integer n)) : op.ideal? m.toInt = some n.toInt := by
  rcases hop with rfl | rfl
  · exact @BinaryOp.ideal_of_apply .add m 1 n h
  · exact @BinaryOp.ideal_of_apply .subtract m 1 n h

end Stackline
