import Stackline.Proofs.Text
import Stackline.Value.Operation

/-!
# Integers and their text

`StartsWith` says which integer a text begins with; it is the one that is read
(`integerPrefix_eq_some_iff`).  An integer is printed as its digits, with a minus in front if it is
negative.  The text of an integer is read back as that integer, with one exception: the magnitude of
the least integer does not fit 64 bits, and it has to before the sign is taken into account
(`makeInt_makeString`).
-/

namespace Stackline

namespace Number

open Text

variable {cs ds s u w : List Char} {negative : Bool}

theorem isDigit_of_mem_digitsOf {n : Nat} {c : Char} (h : c ∈ digitsOf n) : c.isDigit = true :=
  Nat.isDigit_of_mem_toDigits (by decide) (by decide) h

theorem digitsOf_ne_nil (n : Nat) : digitsOf n ≠ [] := Nat.toDigits_ne_nil

/-- The digits of a number other than zero do not begin with a zero. -/
theorem head?_digitsOf (n : Nat) (hn : 0 < n) : (digitsOf n).head? ≠ some '0' := by
  induction n using Nat.strongRecOn with
  | _ n ih =>
    unfold digitsOf at ih ⊢
    by_cases hlt : n < 10
    · have hdigit : ∀ k < 10, 0 < k → k.digitChar ≠ '0' := by decide
      rw [Nat.toDigits_of_lt_base hlt]
      simpa using hdigit n hlt hn
    · have hrest := ih (n / 10) (by omega) (by omega)
      rw [Nat.toDigits_of_base_le (by decide) (by omega), List.head?_append]
      cases hhead : (Nat.toDigits 10 (n / 10)).head? with
      | none => exact absurd (List.head?_eq_none_iff.mp hhead) Nat.toDigits_ne_nil
      | some d =>
        rw [hhead] at hrest
        exact hrest

/-! ### Signs and digits -/

/-- A sign, or none. -/
inductive IsSign : Bool → List Char → Prop
  | absent : IsSign false []
  | plus : IsSign false ['+']
  | minus : IsSign true ['-']

theorem exists_spanSign (cs : List Char) :
    ∃ negative s w, spanSign cs = (negative, w) ∧ IsSign negative s ∧ cs = s ++ w := by
  cases cs with
  | nil => exact ⟨false, [], [], rfl, .absent, rfl⟩
  | cons c cs =>
    by_cases hminus : c = '-'
    · subst hminus
      exact ⟨true, ['-'], cs, rfl, .minus, rfl⟩
    · by_cases hplus : c = '+'
      · subst hplus
        exact ⟨false, ['+'], cs, rfl, .plus, rfl⟩
      · exact ⟨false, [], c :: cs, by simp [spanSign, hminus, hplus], .absent, rfl⟩

theorem spanSign_append (hs : IsSign negative s) {c : Char} (hc : c.isDigit = true ∨ c = '.')
    (w : List Char) : spanSign (s ++ c :: w) = (negative, c :: w) := by
  cases hs with
  | absent =>
    have hminus : c ≠ '-' := by rintro rfl; revert hc; decide
    have hplus : c ≠ '+' := by rintro rfl; revert hc; decide
    simp [spanSign, hminus, hplus]
  | plus => rfl
  | minus => rfl

theorem spanSign_digits_append (hs : IsSign negative s) (hne : ds ≠ [])
    (hds : ∀ c ∈ ds, c.isDigit = true) (w : List Char) :
    spanSign (s ++ (ds ++ w)) = (negative, ds ++ w) := by
  obtain ⟨d, ds, rfl⟩ := List.exists_cons_of_ne_nil hne
  exact spanSign_append hs (.inl (hds d List.mem_cons_self)) _

theorem exists_spanDigits (cs : List Char) :
    ∃ ds w, spanDigits cs = (ds, w) ∧ (∀ c ∈ ds, c.isDigit = true) ∧ cs = ds ++ w := by
  refine ⟨cs.takeWhile Char.isDigit, cs.dropWhile Char.isDigit, ?_, fun c hc => ?_, ?_⟩
  · rw [spanDigits, List.span_eq_takeWhile_dropWhile]
  · exact List.all_eq_true.mp List.all_takeWhile c hc
  · exact List.takeWhile_append_dropWhile.symm

/-- Digits are taken up to the first character that is none. -/
theorem spanDigits_append (hds : ∀ c ∈ ds, c.isDigit = true)
    (hw : ∀ c, w.head? = some c → c.isDigit = false) : spanDigits (ds ++ w) = (ds, w) :=
  span_append hds hw

theorem spanDigits_digits (hds : ∀ c ∈ ds, c.isDigit = true) : spanDigits ds = (ds, []) := by
  have h : spanDigits (ds ++ []) = (ds, []) := spanDigits_append hds nofun
  rwa [List.append_nil] at h

theorem head?_spanDigits {c : Char} (h : (spanDigits cs).2.head? = some c) : c.isDigit = false := by
  rw [spanDigits, List.span_eq_takeWhile_dropWhile] at h
  have hnot := List.head?_dropWhile_not Char.isDigit cs
  rw [h] at hnot
  simpa using hnot

theorem trimStart_sign_append (hs : IsSign negative s) (hne : ds ≠ [])
    (hds : ∀ c ∈ ds, c.isDigit = true) (w : List Char) :
    trimStart (s ++ (ds ++ w)) = s ++ (ds ++ w) := by
  obtain ⟨d, ds, rfl⟩ := List.exists_cons_of_ne_nil hne
  cases hs with
  | absent => exact trimStart_cons (isBlank_of_isDigit (hds d List.mem_cons_self)) _
  | plus | minus => exact trimStart_cons (by decide) _

/-! ### The integer at the start of a text -/

/-- A text begins with an integer: there are blanks, a sign or none, and digits up to the first
character that is none, and what the digits write fits 64 bits before the sign is taken into
account. -/
inductive StartsWith : List Char → Int → Prop
  | mk {u s ds w : List Char} {negative : Bool} (hu : ∀ c ∈ u, isBlank c = true)
      (hs : IsSign negative s) (hne : ds ≠ []) (hds : ∀ c ∈ ds, c.isDigit = true)
      (hw : ∀ c, w.head? = some c → c.isDigit = false)
      (hfit : (Nat.ofDigitChars 10 ds 0 : Int) ≤ Int64.maxValue.toInt) :
      StartsWith (u ++ (s ++ (ds ++ w)))
        (if negative then -(Nat.ofDigitChars 10 ds 0 : Int) else Nat.ofDigitChars 10 ds 0)

/-- Blanks, a sign and digits are read as a number of which the magnitude fits 64 bits. -/
theorem integerPrefix_append (hu : ∀ c ∈ u, isBlank c = true) (hs : IsSign negative s)
    (hne : ds ≠ []) (hds : ∀ c ∈ ds, c.isDigit = true)
    (hw : ∀ c, w.head? = some c → c.isDigit = false) :
    integerPrefix (u ++ (s ++ (ds ++ w))) =
      if (natOf ds : Int) ≤ Int64.maxValue.toInt then
        some (.ofInt (if negative then -natOf ds else natOf ds))
      else none := by
  have hemp : ds.isEmpty = false := by simpa using hne
  have htrim : trimStart (u ++ (s ++ (ds ++ w))) = s ++ (ds ++ w) := by
    rw [trimStart_append, trimStart_blanks hu]
    exact trimStart_sign_append hs hne hds w
  unfold integerPrefix
  rw [htrim, spanSign_digits_append hs hne hds]
  simp only [spanDigits_append hds hw, hemp]
  rfl

theorem toInt_ofInt_signed {n : Nat} (hn : (n : Int) ≤ Int64.maxValue.toInt) (negative : Bool) :
    (Int64.ofInt (if negative then -(n : Int) else n)).toInt = if negative then -(n : Int) else n := by
  rw [Int64.toInt_maxValue] at hn
  refine Int64.toInt_ofInt_of_le ?_ ?_ <;> cases negative <;> simp <;> omega

/-- **What is read is the integer at the start of the text.** -/
theorem integerPrefix_eq_some_iff {n : Int} :
    (integerPrefix cs).map Int64.toInt = some n ↔ StartsWith cs n := by
  constructor
  · intro h
    have hblank : cs.takeWhile isBlank ++ trimStart cs = cs := List.takeWhile_append_dropWhile
    have hu : ∀ c ∈ cs.takeWhile isBlank, isBlank c = true := fun c hc =>
      List.all_eq_true.mp List.all_takeWhile c hc
    obtain ⟨negative, s, w, hsign, hs, hsw⟩ := exists_spanSign (trimStart cs)
    obtain ⟨ds, v, hdigits, hds, rfl⟩ := exists_spanDigits w
    have hv : ∀ c, v.head? = some c → c.isDigit = false := fun c hc =>
      head?_spanDigits (by rw [hdigits]; exact hc)
    rw [hsw] at hblank
    by_cases hne : ds = []
    · -- without digits nothing is read
      have hemp : ds.isEmpty = true := by simpa using hne
      unfold integerPrefix at h
      rw [hsign] at h
      simp [hdigits, hemp] at h
    · rw [← hblank, integerPrefix_append hu hs hne hds hv] at h
      split at h
      · rename_i hfit
        rw [Option.map_some, toInt_ofInt_signed hfit] at h
        rw [← hblank, ← Option.some.inj h]
        exact .mk hu hs hne hds hv hfit
      · cases h
  · intro h
    cases h with
    | @mk u s ds w negative hu hs hne hds hw hfit =>
      have hnat : (natOf ds : Int) ≤ Int64.maxValue.toInt := hfit
      rw [integerPrefix_append hu hs hne hds hw, if_pos hnat, Option.map_some,
        toInt_ofInt_signed hnat]
      rfl

/-! ### Signed digits -/

/-- Digits, with a minus in front if the number is negative. -/
def signed (negative : Bool) (ds : List Char) : List Char := if negative then '-' :: ds else ds

theorem exists_signed (negative : Bool) (ds : List Char) :
    ∃ s, IsSign negative s ∧ signed negative ds = s ++ ds := by
  cases negative with
  | true => exact ⟨['-'], .minus, rfl⟩
  | false => exact ⟨[], .absent, rfl⟩

theorem trim_signed (hne : ds ≠ []) (hds : ∀ c ∈ ds, c.isDigit = true) (negative : Bool) :
    trim (signed negative ds) = signed negative ds := by
  obtain ⟨s, hs, hsigned⟩ := exists_signed negative ds
  have hfirm : Firm ds := fun c hc => isBlank_of_isDigit (hds c (List.mem_of_getLast? hc))
  have hstart := trimStart_sign_append hs hne hds []
  rw [List.append_nil] at hstart
  rw [hsigned, trim, hstart, (hfirm.append hne s).trimEnd_eq]

theorem integerPrefix_signed (hne : ds ≠ []) (hds : ∀ c ∈ ds, c.isDigit = true)
    (negative : Bool) :
    integerPrefix (signed negative ds) =
      if (natOf ds : Int) ≤ Int64.maxValue.toInt then
        some (.ofInt (if negative then -natOf ds else natOf ds))
      else none := by
  obtain ⟨s, hs, hsigned⟩ := exists_signed negative ds
  have h := integerPrefix_append (u := []) (w := []) nofun hs hne hds nofun
  rwa [List.append_nil, List.nil_append, ← hsigned] at h

end Number

namespace Value

open Number

theorem toList_integerText (n : Int64) :
    (integerText n).toList = signed (n.toInt < 0) (digitsOf n.toInt.natAbs) := by
  unfold integerText signed digitsOf
  rw [Int.toString_eq_repr, Int.repr_eq_if]
  by_cases hneg : n.toInt < 0
  · have habs : (-n.toInt).toNat = n.toInt.natAbs := by omega
    have hnot : ¬ 0 ≤ n.toInt := by omega
    simp [hneg, hnot, habs]
  · have habs : n.toInt.toNat = n.toInt.natAbs := by omega
    have hnonneg : 0 ≤ n.toInt := by omega
    simp [hneg, hnonneg, habs]

/-- The magnitude of every integer but the least is an integer. -/
theorem natAbs_le_maxValue_iff (n : Int64) :
    (n.toInt.natAbs : Int) ≤ Int64.maxValue.toInt ↔ n ≠ Int64.minValue := by
  have hle := n.le_toInt
  have hlt := n.toInt_lt
  rw [Int64.toInt_maxValue, ne_eq, ← Int64.toInt_inj, Int64.toInt_minValue]
  omega

theorem integerPrefix_integerText (n : Int64) :
    integerPrefix (integerText n).toList = if n = Int64.minValue then none else some n := by
  have hdigits : ∀ c ∈ digitsOf n.toInt.natAbs, c.isDigit = true :=
    fun c hc => isDigit_of_mem_digitsOf hc
  have hvalue : (if decide (n.toInt < 0) = true then -(n.toInt.natAbs : Int) else n.toInt.natAbs) =
      n.toInt := by
    by_cases hneg : n.toInt < 0
    · simp only [hneg, decide_true, if_true]
      omega
    · simp only [hneg, decide_false, Bool.false_eq_true, if_false]
      omega
  rw [toList_integerText, integerPrefix_signed (digitsOf_ne_nil _) hdigits, natOf_digitsOf, hvalue,
    Int64.ofInt_toInt]
  by_cases hmin : n = Int64.minValue
  · rw [if_neg (by rw [natAbs_le_maxValue_iff]; simp [hmin]), if_pos hmin]
  · rw [if_pos ((natAbs_le_maxValue_iff n).mpr hmin), if_neg hmin]

/-- **What becomes of an integer that is printed and read back.**  Made a text and then an integer
again, or used as a line number in the form of a text, every integer is what it was, except for the
least one, which is lost. -/
theorem makeInt_makeString (n : Int64) :
    (integer n).makeString.makeInt = (if n = Int64.minValue then null else integer n) ∧
    (text (integer n).display).toInteger? = (if n = Int64.minValue then none else some n) := by
  have hread : (text (integerText n)).toInteger? = if n = Int64.minValue then none else some n :=
    integerPrefix_integerText n
  refine ⟨?_, hread⟩
  show (text (integerText n)).makeInt = _
  unfold makeInt
  rw [hread]
  by_cases hmin : n = Int64.minValue
  · rw [if_pos hmin, if_pos hmin]
  · rw [if_neg hmin, if_neg hmin]

/-- The least integer becomes null, and its text is no line number. -/
theorem makeInt_makeString_minValue :
    (integer Int64.minValue).display = "-9223372036854775808" ∧
    (integer Int64.minValue).makeString.makeInt = null ∧
    (text (integer Int64.minValue).display).toInteger? = none := by
  have hread : (text (integerText Int64.minValue)).toInteger? = none :=
    (integerPrefix_integerText Int64.minValue).trans (if_pos rfl)
  refine ⟨by decide +kernel, ?_, hread⟩
  show (text (integerText Int64.minValue)).makeInt = null
  unfold makeInt
  rw [hread]

end Value

end Stackline
