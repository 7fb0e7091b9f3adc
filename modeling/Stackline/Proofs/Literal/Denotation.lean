import Stackline.Proofs.Literal.Shape
import Stackline.Proofs.Number.Integer

/-!
# What literals denote

The literals of integers and of null (`read_integer_or_null`) and those of texts (`read_text`), each
as an equivalence between what is read and how it is written.  A number is read digit by digit into
64 bits without a sign, and goes on as a double where these are too few; so it matters that digits
of a number that fits never leave them (`gather_of_lt`).
-/

namespace Stackline.Literal

open Number Text

variable {v : Value} {cs ds rest : List Char} {negative : Bool} {n : Int64} {k : Nat}

/-! ### Doubles -/

theorem exists_float_of_scaled {e : Int} (h : scaled negative k e cs = .ok (v, rest)) :
    ∃ x, v = .float x := by
  unfold scaled at h
  split at h
  · cases h
    exact ⟨_, rfl⟩
  · cases h

theorem exists_float_of_exponent {e : Int} (h : exponent negative k e cs = .ok (v, rest)) :
    ∃ x, v = .float x := by
  unfold exponent at h
  simp only at h
  split at h
  · cases h
  split at h
  · split at h
    · exact exists_float_of_scaled h
    · split at h
      · cases h
      · cases h
        exact ⟨_, rfl⟩
  · cases h

theorem exists_float_of_fraction {e : Int} (h : fraction negative k e cs = .ok (v, rest)) :
    ∃ x, v = .float x := by
  unfold fraction at h
  simp only at h
  split at h
  · cases h
  unfold afterFraction at h
  split at h
  · exact exists_float_of_scaled h
  split at h
  · exact exists_float_of_exponent h
  · exact exists_float_of_scaled h

/-! ### Integers -/

theorem le_ofDigitChars (ds : List Char) (k : Nat) : k ≤ Nat.ofDigitChars 10 ds k := by
  induction ds generalizing k with
  | nil => simp
  | cons d ds ih =>
    rw [Nat.ofDigitChars_cons]
    have := ih (10 * k + (d.toNat - '0'.toNat))
    omega

/-- Digits of a number that fits are all gathered. -/
theorem gather_of_lt (h : Nat.ofDigitChars 10 ds k < UInt64.size) :
    gather k ds = (Nat.ofDigitChars 10 ds k, 0) := by
  induction ds generalizing k with
  | nil => simp [gather]
  | cons d ds ih =>
    rw [Nat.ofDigitChars_cons] at h ⊢
    have hle := le_ofDigitChars ds (10 * k + (d.toNat - '0'.toNat))
    rw [gather, if_pos (by omega), ih h]

/-- If no digit is left over, the digits are those of the number. -/
theorem fst_gather_of_snd (h : (gather k ds).2 = 0) :
    (gather k ds).1 = Nat.ofDigitChars 10 ds k := by
  induction ds generalizing k with
  | nil => simp [gather]
  | cons d ds ih =>
    rw [Nat.ofDigitChars_cons]
    simp only [gather] at h ⊢
    split at h
    · next hlt =>
      rw [if_pos hlt]
      exact ih h
    · cases h

/-- The integer with a magnitude and a sign, where there is no negative zero. -/
theorem whole_eq_integer_iff : whole negative k = .integer n ↔
    (negative = true → 1 ≤ k) ∧ n.toInt = if negative then -(k : Int) else k := by
  have hle := n.le_toInt
  have hlt := n.toInt_lt
  unfold whole
  cases negative with
  | true =>
    simp only [if_true, true_imp_iff]
    constructor
    · intro h
      split at h
      · next hk =>
        rw [Int64.toInt_minValue] at hk
        cases h
        exact ⟨hk.1, Int64.toInt_ofInt_of_le hk.2 (by omega)⟩
      · cases h
    · rintro ⟨hk, hn⟩
      rw [if_pos ⟨hk, by rw [← hn]; exact n.minValue_le_toInt⟩, ← hn, Int64.ofInt_toInt]
  | false =>
    simp only [Bool.false_eq_true, if_false, false_imp_iff, true_and]
    constructor
    · intro h
      split at h
      · next hk =>
        rw [Int64.toInt_maxValue] at hk
        cases h
        exact Int64.toInt_ofInt_of_le (by omega) (by omega)
      · cases h
    · intro hn
      rw [if_pos (by rw [← hn]; exact n.toInt_le), ← hn, Int64.ofInt_toInt]

theorem withoutPoint_eq_integer_iff {left : Nat} :
    withoutPoint negative k left cs = .ok (.integer n, rest) ↔
      cs = rest ∧ left = 0 ∧ whole negative k = .integer n := by
  unfold withoutPoint
  split
  · next hleft =>
    simp [hleft, and_comm]
  · next hleft =>
    constructor
    · intro h
      obtain ⟨x, hx⟩ := exists_float_of_scaled h
      cases hx
    · exact fun h => absurd h.2.1 hleft

/-- A number that ends in its digits is an integer if they have all been gathered. -/
theorem afterWhole_eq_integer_iff {left : Nat} :
    afterWhole negative k left cs = .ok (.integer n, []) ↔
      cs = [] ∧ left = 0 ∧ whole negative k = .integer n := by
  unfold afterWhole
  split
  · exact withoutPoint_eq_integer_iff
  next c rest =>
  split
  · constructor
    · intro h
      obtain ⟨x, hx⟩ := exists_float_of_fraction h
      cases hx
    · exact fun h => absurd h.1 (by simp)
  split
  · constructor
    · intro h
      obtain ⟨x, hx⟩ := exists_float_of_exponent h
      cases hx
    · exact fun h => absurd h.1 (by simp)
  · exact withoutPoint_eq_integer_iff

/-- A whole number: a zero, or digits of which the first is none. -/
structure IsWhole (ds : List Char) : Prop where
  ne_nil : ds ≠ []
  digits : ∀ c ∈ ds, c.isDigit = true
  zero : ds.head? = some '0' → ds = ['0']

theorem isWhole_digitsOf (k : Nat) : IsWhole (digitsOf k) where
  ne_nil := digitsOf_ne_nil k
  digits _ hc := isDigit_of_mem_digitsOf hc
  zero h := by
    by_cases hk : 0 < k
    · exact absurd h (head?_digitsOf k hk)
    · obtain rfl : k = 0 := by omega
      rfl

theorem IsWhole.natOf_pos_iff (h : IsWhole ds) : 1 ≤ natOf ds ↔ ds ≠ ['0'] := by
  constructor
  · rintro hpos rfl
    exact absurd hpos (by decide)
  · intro hne
    cases ds with
    | nil => exact absurd rfl h.ne_nil
    | cons d ds =>
      have hd := Char.isDigit_iff_toNat.mp (h.digits d List.mem_cons_self)
      have hzero : d.toNat ≠ '0'.toNat := by
        intro heq
        obtain rfl : d = '0' := Char.toNat_inj.mp heq
        exact hne (h.zero rfl)
      have hle := le_ofDigitChars ds (10 * 0 + (d.toNat - '0'.toNat))
      rw [natOf, Nat.ofDigitChars_cons]
      omega

/-- What is gathered of digits that end a number. -/
theorem afterWhole_gather_iff :
    afterWhole negative (gather 0 ds).1 (gather 0 ds).2 cs = .ok (.integer n, []) ↔
      cs = [] ∧ whole negative (natOf ds) = .integer n := by
  rw [afterWhole_eq_integer_iff]
  constructor
  · rintro ⟨hcs, hleft, hwhole⟩
    rw [fst_gather_of_snd hleft] at hwhole
    exact ⟨hcs, hwhole⟩
  · rintro ⟨hcs, hwhole⟩
    have hvalue := (whole_eq_integer_iff.mp hwhole).2
    have hfits : natOf ds < UInt64.size := by
      have hle := n.le_toInt
      have hlt := n.toInt_lt
      have hsize : UInt64.size = 18446744073709551616 := rfl
      split at hvalue <;> omega
    rw [gather_of_lt hfits]
    exact ⟨hcs, rfl, hwhole⟩

theorem number_zero_iff : number negative ('0' :: rest) = .ok (.integer n, []) ↔
    rest = [] ∧ whole negative 0 = .integer n := by
  unfold number
  simp only [if_true]
  split
  · split
    · simp [stopIn]
    · rw [afterWhole_eq_integer_iff]
      simp
  · rw [afterWhole_eq_integer_iff]
    simp

theorem number_digit_iff {c : Char} (hc : c.isDigit = true) (hzero : c ≠ '0') :
    number negative (c :: rest) = .ok (.integer n, []) ↔
      (∀ d ∈ rest, d.isDigit = true) ∧ whole negative (natOf (c :: rest)) = .integer n := by
  unfold number
  simp only [hzero, hc, if_true, if_false]
  rw [afterWhole_gather_iff]
  constructor
  · rintro ⟨hrest, hwhole⟩
    have hdigits : ∀ d ∈ c :: rest, d.isDigit = true := by
      unfold spanDigits at hrest
      rw [List.span_eq_takeWhile_dropWhile] at hrest
      exact List.dropWhile_eq_nil_iff.mp hrest
    rw [spanDigits_digits hdigits] at hwhole
    exact ⟨(List.forall_mem_cons.mp hdigits).2, hwhole⟩
  · rintro ⟨hdigits, hwhole⟩
    rw [spanDigits_digits (List.forall_mem_cons.mpr ⟨hc, hdigits⟩)]
    exact ⟨rfl, hwhole⟩

theorem number_eq_whole_iff : number negative cs = .ok (.integer n, []) ↔
    IsWhole cs ∧ whole negative (natOf cs) = .integer n := by
  cases cs with
  | nil =>
    constructor
    · intro h
      cases h
    · exact fun h => absurd rfl h.1.ne_nil
  | cons c rest =>
    by_cases hzero : c = '0'
    · subst hzero
      rw [number_zero_iff]
      constructor
      · rintro ⟨rfl, hwhole⟩
        exact ⟨isWhole_digitsOf 0, hwhole⟩
      · rintro ⟨hcs, hwhole⟩
        obtain rfl : rest = [] := by simpa using hcs.zero rfl
        exact ⟨rfl, hwhole⟩
    by_cases hc : c.isDigit = true
    · rw [number_digit_iff hc hzero]
      constructor
      · rintro ⟨hrest, hwhole⟩
        exact ⟨⟨by simp, List.forall_mem_cons.mpr ⟨hc, hrest⟩, by simp [hzero]⟩, hwhole⟩
      · rintro ⟨hcs, hwhole⟩
        exact ⟨(List.forall_mem_cons.mp hcs.digits).2, hwhole⟩
    · constructor
      · intro h
        simp [number, hzero, hc, stopIn] at h
      · exact fun h => absurd (h.1.digits c List.mem_cons_self) hc

/-- The text of an integer: a whole number, or a minus and a whole number other than zero. -/
inductive Writes : List Char → Int → Prop
  | positive {ds : List Char} (h : IsWhole ds) : Writes ds (natOf ds)
  | negative {ds : List Char} (h : IsWhole ds) (hzero : ds ≠ ['0']) : Writes ('-' :: ds) (-natOf ds)

theorem number_eq_integer_iff : number negative cs = .ok (.integer n, []) ↔
    IsWhole cs ∧ (negative = true → cs ≠ ['0']) ∧
      n.toInt = if negative then -(natOf cs : Int) else natOf cs := by
  rw [number_eq_whole_iff, whole_eq_integer_iff]
  constructor
  · rintro ⟨hcs, hpos, hn⟩
    exact ⟨hcs, fun hneg => hcs.natOf_pos_iff.mp (hpos hneg), hn⟩
  · rintro ⟨hcs, hne, hn⟩
    exact ⟨hcs, fun hneg => hcs.natOf_pos_iff.mpr (hne hneg), hn⟩

theorem isSome_toFloat?_whole (negative : Bool) (k : Nat) :
    (whole negative k).toFloat?.isSome = true := by
  unfold whole
  repeat' split
  all_goals rfl

theorem isSome_toFloat?_of_withoutPoint {left : Nat}
    (h : withoutPoint negative k left cs = .ok (v, rest)) : v.toFloat?.isSome = true := by
  unfold withoutPoint at h
  split at h
  · cases h
    exact isSome_toFloat?_whole negative k
  · obtain ⟨x, rfl⟩ := exists_float_of_scaled h
    rfl

theorem isSome_toFloat?_of_afterWhole {left : Nat}
    (h : afterWhole negative k left cs = .ok (v, rest)) : v.toFloat?.isSome = true := by
  unfold afterWhole at h
  split at h
  · exact isSome_toFloat?_of_withoutPoint h
  split at h
  · obtain ⟨x, rfl⟩ := exists_float_of_fraction h
    rfl
  split at h
  · obtain ⟨x, rfl⟩ := exists_float_of_exponent h
    rfl
  · exact isSome_toFloat?_of_withoutPoint h

/-- What is read as a number is one. -/
theorem isSome_toFloat?_of_number (h : number negative cs = .ok (v, rest)) :
    v.toFloat?.isSome = true := by
  unfold number at h
  split at h
  · cases h
  split at h
  · split at h
    · split at h
      · cases h
      · exact isSome_toFloat?_of_afterWhole h
    · exact isSome_toFloat?_of_afterWhole h
  split at h
  · exact isSome_toFloat?_of_afterWhole h
  · cases h

theorem reads_integer_iff : Reads cs (.integer n) [] ↔
    cs = "true".toList ∧ n = 1 ∨ cs = "false".toList ∧ n = 0 ∨ Writes cs n.toInt := by
  constructor
  · intro h
    generalize hv : Value.integer n = v at h
    cases h with
    | null => cases hv
    | truth =>
      cases hv
      exact .inl ⟨rfl, rfl⟩
    | falsehood =>
      cases hv
      exact .inr (.inl ⟨rfl, rfl⟩)
    | negative h =>
      subst hv
      obtain ⟨hcs, hzero, hn⟩ := number_eq_integer_iff.mp h
      rw [hn]
      exact .inr (.inr (.negative hcs (hzero rfl)))
    | positive hc h =>
      subst hv
      obtain ⟨hcs, -, hn⟩ := number_eq_integer_iff.mp h
      rw [hn]
      exact .inr (.inr (.positive hcs))
    | quoted h => cases hv
  · rintro (⟨rfl, rfl⟩ | ⟨rfl, rfl⟩ | h)
    · exact .truth
    · exact .falsehood
    · generalize hk : n.toInt = k at h
      cases h with
      | positive h =>
        obtain ⟨c, ds, rfl⟩ := List.exists_cons_of_ne_nil h.ne_nil
        exact .positive (h.digits c List.mem_cons_self)
          (number_eq_integer_iff.mpr ⟨h, nofun, hk⟩)
      | negative h hzero =>
        exact .negative (number_eq_integer_iff.mpr ⟨h, fun _ => hzero, hk⟩)

theorem reads_null_iff : Reads cs .null [] ↔ cs = "null".toList := by
  constructor
  · intro h
    generalize hv : Value.null = v at h
    cases h with
    | null => rfl
    | truth | falsehood | quoted h => cases hv
    | negative h | positive _ h =>
      subst hv
      exact absurd (isSome_toFloat?_of_number h) Bool.false_ne_true
  · rintro rfl
    exact .null

theorem writes_integerText (n : Int64) : Writes (Value.integerText n).toList n.toInt := by
  have hwhole := isWhole_digitsOf n.toInt.natAbs
  have hvalue : natOf (digitsOf n.toInt.natAbs) = n.toInt.natAbs := natOf_digitsOf _
  rw [Value.toList_integerText]
  by_cases hneg : n.toInt < 0
  · have hpos : 1 ≤ natOf (digitsOf n.toInt.natAbs) := by omega
    have hn : -(natOf (digitsOf n.toInt.natAbs) : Int) = n.toInt := by omega
    have hwrites := Writes.negative hwhole (hwhole.natOf_pos_iff.mp hpos)
    rw [hn] at hwrites
    simpa [signed, hneg] using hwrites
  · have hn : (natOf (digitsOf n.toInt.natAbs) : Int) = n.toInt := by omega
    have hwrites := Writes.positive hwhole
    rw [hn] at hwrites
    simpa [signed, hneg] using hwrites

theorem read_display_integer (n : Int64) : read (Value.integer n).display = .ok (.integer n) := by
  have htrim : trim (Value.integerText n).toList = (Value.integerText n).toList := by
    rw [Value.toList_integerText]
    exact trim_signed (digitsOf_ne_nil _) (fun _ => isDigit_of_mem_digitsOf) _
  have hreads := reads_integer_iff.mpr (.inr (.inr (writes_integerText n)))
  refine read_eq_ok_iff.mpr (.inl ?_)
  show Reads (trim (Value.integerText n).toList) _ []
  rwa [htrim]

/-- **The literals of integers and of null.**  Without the blanks around it, a literal is read as an
integer if and only if it is `true` or `false`, for one and zero, or writes that integer: a zero or
digits that do not begin with one, possibly after a minus, but not `-0`.  It is read as null if and
only if it is `null` or `NULL`.  What an integer prints is a literal of it. -/
theorem read_integer_or_null (s : String) :
    (∀ n, read s = .ok (.integer n) ↔
      trim s.toList = "true".toList ∧ n = 1 ∨ trim s.toList = "false".toList ∧ n = 0 ∨
        Writes (trim s.toList) n.toInt) ∧
    (read s = .ok .null ↔ trim s.toList = "null".toList ∨ trim s.toList = "NULL".toList) ∧
    ∀ n, read (Value.integer n).display = .ok (.integer n) := by
  refine ⟨fun n => ?_, ?_, read_display_integer⟩
  · rw [read_eq_ok_iff, reads_integer_iff]
    simp
  · rw [read_eq_ok_iff, reads_null_iff]
    simp

/-! ### Texts -/

theorem reads_text_iff {t : String} : Reads cs (.text t) [] ↔
    ∃ items, List.Forall₂ Item items t.toList ∧ cs = '"' :: items.flatten ++ ['"'] := by
  constructor
  · intro h
    generalize hv : Value.text t = v at h
    cases h with
    | null | truth | falsehood => cases hv
    | negative h | positive _ h =>
      subst hv
      exact absurd (isSome_toFloat?_of_number h) Bool.false_ne_true
    | quoted h =>
      cases hv
      obtain ⟨items, hitems, rfl⟩ := quotedBody_eq_ok_iff.mp h
      exact ⟨items, by simpa using hitems, rfl⟩
  · rintro ⟨items, hitems, rfl⟩
    have hbody : quotedBody (items.flatten ++ ['"']) = .ok (t.toList, []) :=
      quotedBody_eq_ok_iff.mpr ⟨items, hitems, rfl⟩
    have h := Reads.quoted hbody
    rwa [String.ofList_toList] at h

theorem trim_quoted (b : List Char) : trim ('"' :: b ++ ['"']) = '"' :: b ++ ['"'] := by
  have hquote : Firm ['"'] := by
    intro c hc
    cases hc
    decide
  have hfirm := hquote.append (by simp) ('"' :: b)
  rw [trim, List.cons_append, trimStart_cons (by decide), ← List.cons_append, hfirm.trimEnd_eq]

/-- **The literals of texts.**  Without the blanks around it, a literal is read as a text if and
only if it is a row of items between two quotes that denote the characters of the text.  Every text
has such a literal. -/
theorem read_text (s t : String) :
    (read s = .ok (.text t) ↔
      ∃ items, List.Forall₂ Item items t.toList ∧
        trim s.toList = '"' :: items.flatten ++ ['"']) ∧
    ∃ s', read s' = .ok (.text t) := by
  constructor
  · rw [read_eq_ok_iff, reads_text_iff]
    simp
  · refine ⟨.ofList ('"' :: (t.toList.map spelled).flatten ++ ['"']), ?_⟩
    rw [read_eq_ok_iff, String.toList_ofList, trim_quoted]
    exact .inl (reads_text_iff.mpr ⟨_, items_spelled t.toList, rfl⟩)

end Stackline.Literal
