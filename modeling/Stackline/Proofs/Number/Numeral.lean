import Mathlib.Data.List.DropRight
import Stackline.Proofs.Number.Integer

/-!
# The longest numeral

`n.Written t` is the grammar of decimals: the text `t` writes the numeral `n`.  A whole text is read as
a numeral just if it is one (`Numeral.ofText?_eq_some_iff`).  Reading the start of a text comes in two
steps, as what may be read is cut off first and read as a whole then.  The cut takes the longest
beginning that is a numeral, for what it leaves of a text is no longer than what any numeral at its
start leaves (`skipNumeral?_of_written`); a point at the end is dropped, which changes no numeral
(`Numeral.Written.dropPoints`).  So the second step never fails (`decimalPrefix_longest`).
-/

namespace Stackline.Number

open Text

variable {cs ds fs m s t u v w x : List Char} {negative : Bool} {e : Int} {n : Numeral}

/-! ### The grammar -/

/-- Digits; digits, a point and digits if there are any; or a point and digits. -/
inductive IsMantissa : List Char → List Char → List Char → Prop
  | whole {ds : List Char} (hne : ds ≠ []) (hds : ∀ c ∈ ds, c.isDigit = true) : IsMantissa ds [] ds
  | pointed {ds fs : List Char} (hne : ds ≠ []) (hds : ∀ c ∈ ds, c.isDigit = true)
      (hfs : ∀ c ∈ fs, c.isDigit = true) : IsMantissa ds fs (ds ++ '.' :: fs)
  | bare {fs : List Char} (hne : fs ≠ []) (hfs : ∀ c ∈ fs, c.isDigit = true) :
      IsMantissa [] fs ('.' :: fs)

/-- A mark, a sign or none, and at least one digit; or no exponent at all. -/
inductive IsExponent : Int → List Char → Prop
  | absent : IsExponent 0 []
  | marked {c : Char} {negative : Bool} {s ds : List Char} (hc : c = 'e' ∨ c = 'E')
      (hs : IsSign negative s) (hne : ds ≠ []) (hds : ∀ c ∈ ds, c.isDigit = true) :
      IsExponent (if negative then -natOf ds else natOf ds) (c :: (s ++ ds))

/-- The text writes the numeral. -/
inductive Numeral.Written : Numeral → List Char → Prop
  | mk {negative : Bool} {whole fraction s m x : List Char} {e : Int} (hs : IsSign negative s)
      (hm : IsMantissa whole fraction m) (hx : IsExponent e x) :
      Written ⟨negative, whole, fraction, e⟩ (s ++ (m ++ x))

/-- The text is a numeral. -/
def IsNumeral (t : List Char) : Prop := ∃ n : Numeral, n.Written t

/-- `t` is the longest beginning of `u` that is a numeral. -/
structure IsLongest (u t : List Char) : Prop where
  isPrefix : t <+: u
  isNumeral : IsNumeral t
  longest : ∀ t', t' <+: u → IsNumeral t' → t'.length ≤ t.length

/-! ### Spans -/

theorem spanDigits_digits_append (hds : ∀ c ∈ ds, c.isDigit = true) (w : List Char) :
    spanDigits (ds ++ w) = (ds ++ (spanDigits w).1, (spanDigits w).2) := by
  simp only [spanDigits, List.span_eq_takeWhile_dropWhile, List.takeWhile_append_of_pos hds,
    List.dropWhile_append_of_pos hds]

theorem length_spanDigits_le (cs : List Char) : (spanDigits cs).2.length ≤ cs.length := by
  obtain ⟨ds, w, hspan, -, rfl⟩ := exists_spanDigits cs
  rw [hspan]
  simp

theorem spanFraction_cons {c : Char} (hc : c ≠ '.') (w : List Char) :
    spanFraction (c :: w) = ([], c :: w) := if_neg hc

/-- A point and digits are cut off, or nothing is. -/
theorem exists_spanFraction (cs : List Char) : ∃ fs w, spanFraction cs = (fs, w) ∧
    ((∀ c ∈ fs, c.isDigit = true) ∧ cs = '.' :: (fs ++ w) ∨ fs = [] ∧ cs = w) := by
  cases cs with
  | nil => exact ⟨[], [], rfl, .inr ⟨rfl, rfl⟩⟩
  | cons c cs =>
    by_cases hc : c = '.'
    · subst hc
      obtain ⟨fs, w, hspan, hfs, rfl⟩ := exists_spanDigits cs
      exact ⟨fs, w, hspan, .inl ⟨hfs, rfl⟩⟩
    · exact ⟨[], c :: cs, spanFraction_cons hc cs, .inr ⟨rfl, rfl⟩⟩

/-! ### Mantissas -/

theorem spanMantissa_eq (cs : List Char) : spanMantissa cs =
    ((spanDigits cs).1, (spanFraction (spanDigits cs).2).1, (spanFraction (spanDigits cs).2).2) := rfl

theorem exists_mantissa {whole fraction rest : List Char}
    (h : spanMantissa cs = (whole, fraction, rest)) (hne : ¬ (whole = [] ∧ fraction = [])) :
    ∃ m, IsMantissa whole fraction m ∧ cs = m ++ rest := by
  obtain ⟨ds, w, hdigits, hds, rfl⟩ := exists_spanDigits cs
  obtain ⟨fs, v, hfraction, hsplit⟩ := exists_spanFraction w
  rw [spanMantissa_eq, hdigits, hfraction] at h
  cases h
  rcases hsplit with ⟨hfs, rfl⟩ | ⟨rfl, rfl⟩
  · by_cases hds' : ds = []
    · subst hds'
      exact ⟨'.' :: fs, .bare (by simpa using hne) hfs, rfl⟩
    · exact ⟨ds ++ '.' :: fs, .pointed hds' hds hfs, by simp⟩
  · exact ⟨ds, .whole (by simpa using hne) hds, rfl⟩

theorem length_spanMantissa_le (cs : List Char) : (spanMantissa cs).2.2.length ≤ cs.length := by
  obtain ⟨ds, w, hdigits, -, rfl⟩ := exists_spanDigits cs
  obtain ⟨fs, v, hfraction, hsplit⟩ := exists_spanFraction w
  rw [spanMantissa_eq, hdigits, hfraction]
  rcases hsplit with ⟨-, rfl⟩ | ⟨-, rfl⟩
  · simp
    omega
  · simp

theorem spanMantissa_whole (hds : ∀ c ∈ ds, c.isDigit = true) (w : List Char) :
    spanMantissa (ds ++ w) = (ds ++ (spanMantissa w).1, (spanMantissa w).2) := by
  rw [spanMantissa_eq, spanDigits_digits_append hds]
  rfl

theorem spanMantissa_pointed (hds : ∀ c ∈ ds, c.isDigit = true) (hfs : ∀ c ∈ fs, c.isDigit = true)
    (w : List Char) :
    spanMantissa (ds ++ '.' :: (fs ++ w)) = (ds, fs ++ (spanDigits w).1, (spanDigits w).2) := by
  have hbare : spanMantissa ('.' :: (fs ++ w)) = ([], spanDigits (fs ++ w)) := rfl
  rw [spanMantissa_whole hds, hbare, spanDigits_digits_append hfs, List.append_nil]

/-- Whatever follows a mantissa, the longest mantissa there leaves no more of it. -/
theorem exists_spanMantissa {whole fraction : List Char} (hm : IsMantissa whole fraction m)
    (w : List Char) : ∃ whole' fraction' rest, spanMantissa (m ++ w) = (whole', fraction', rest) ∧
      ¬ (whole' = [] ∧ fraction' = []) ∧ rest.length ≤ w.length := by
  cases hm with
  | whole hne hds =>
    exact ⟨_, _, _, spanMantissa_whole hds w, by simp [hne], length_spanMantissa_le w⟩
  | pointed hne hds hfs =>
    rw [List.append_assoc, List.cons_append]
    exact ⟨_, _, _, spanMantissa_pointed hds hfs w, by simp [hne], length_spanDigits_le w⟩
  | bare hne hfs =>
    have hpointed := spanMantissa_pointed (List.forall_mem_nil _) hfs w
    exact ⟨_, _, _, hpointed, by simp [hne], length_spanDigits_le w⟩

/-- A mantissa goes no further into this text. -/
structure Stops (w : List Char) : Prop where
  digits : spanDigits w = ([], w)
  fraction : spanFraction w = ([], w)

theorem stops_mark {c : Char} (hc : c = 'e' ∨ c = 'E') (w : List Char) : Stops (c :: w) := by
  rcases hc with rfl | rfl
  · exact ⟨rfl, rfl⟩
  · exact ⟨rfl, rfl⟩

theorem IsExponent.stops (hx : IsExponent e x) : Stops x := by
  cases hx with
  | absent => exact ⟨rfl, rfl⟩
  | marked hc hs hne hds => exact stops_mark hc _

theorem spanMantissa_append {whole fraction : List Char} (hm : IsMantissa whole fraction m)
    (hw : Stops w) : spanMantissa (m ++ w) = (whole, fraction, w) := by
  cases hm with
  | whole hne hds =>
    have hnone : spanMantissa w = ([], [], w) := by rw [spanMantissa_eq, hw.digits, hw.fraction]
    rw [spanMantissa_whole hds, hnone, List.append_nil]
  | pointed hne hds hfs =>
    rw [List.append_assoc, List.cons_append, spanMantissa_pointed hds hfs, hw.digits, List.append_nil]
  | bare hne hfs =>
    have hpointed := spanMantissa_pointed (List.forall_mem_nil _) hfs w
    rwa [hw.digits, List.append_nil] at hpointed

/-! ### Exponents -/

theorem exponent?_of_isExponent (hx : IsExponent e x) : exponent? x = some e := by
  cases hx with
  | absent => rfl
  | @marked c negative s ds hc hs hne hds =>
    have hsign := spanSign_digits_append hs hne hds []
    rw [List.append_nil] at hsign
    have hemp : ds.isEmpty = false := by simpa using hne
    simp only [exponent?, if_pos hc, hsign, spanDigits_digits hds, hemp]
    rfl

theorem isExponent_of_exponent? (h : exponent? x = some e) : IsExponent e x := by
  cases x with
  | nil =>
    cases h
    exact .absent
  | cons c cs =>
    obtain ⟨negative, s, w, hsign, hs, rfl⟩ := exists_spanSign cs
    obtain ⟨ds, v, hdigits, hds, rfl⟩ := exists_spanDigits w
    by_cases hc : c = 'e' ∨ c = 'E'
    · simp only [exponent?, if_pos hc, hsign, hdigits] at h
      split at h
      · cases h
      · next hok =>
        obtain ⟨hne, rfl⟩ : ds ≠ [] ∧ v = [] := by simpa using hok
        cases h
        rw [List.append_nil]
        exact .marked hc hs hne hds
    · rw [exponent?, if_neg hc] at h
      cases h

/-- An exponent at the start of a text is cut off, or nothing is. -/
theorem exists_exponent (cs : List Char) : ∃ x e, IsExponent e x ∧ cs = x ++ skipExponent cs := by
  cases cs with
  | nil => exact ⟨[], 0, .absent, rfl⟩
  | cons c cs =>
    by_cases hc : c = 'e' ∨ c = 'E'
    · obtain ⟨negative, s, w, hsign, hs, rfl⟩ := exists_spanSign cs
      obtain ⟨ds, v, hdigits, hds, rfl⟩ := exists_spanDigits w
      by_cases hne : ds = []
      · refine ⟨[], 0, .absent, ?_⟩
        simp only [skipExponent, if_pos hc, hsign, hdigits, List.isEmpty_iff.mpr hne]
        rfl
      · refine ⟨_, _, .marked hc hs hne hds, ?_⟩
        simp [skipExponent, hc, hsign, hdigits, hne]
    · refine ⟨[], 0, .absent, ?_⟩
      rw [skipExponent, if_neg hc, List.nil_append]

/-- The longest exponent at the start of a text leaves no more of it than any other. -/
theorem length_skipExponent_append_le (hx : IsExponent e x) (v : List Char) :
    (skipExponent (x ++ v)).length ≤ v.length := by
  cases hx with
  | absent =>
    obtain ⟨x, e, -, hsplit⟩ := exists_exponent v
    have hlen := congrArg List.length hsplit
    rw [List.length_append] at hlen
    show (skipExponent v).length ≤ v.length
    omega
  | @marked c negative s ds hc hs hne hds =>
    have hemp : (ds ++ (spanDigits v).1).isEmpty = false := by simp [hne]
    rw [List.cons_append, List.append_assoc, skipExponent, if_pos hc, spanSign_digits_append hs hne hds,
      spanDigits_digits_append hds]
    simp only [hemp]
    exact length_spanDigits_le v

/-! ### Numerals -/

/-- The first character of a mantissa is no sign. -/
theorem spanSign_mantissa_append (hs : IsSign negative s) {whole fraction : List Char}
    (hm : IsMantissa whole fraction m) (w : List Char) :
    spanSign (s ++ (m ++ w)) = (negative, m ++ w) := by
  cases hm with
  | whole hne hds => exact spanSign_digits_append hs hne hds w
  | pointed hne hds hfs =>
    rw [List.append_assoc]
    exact spanSign_digits_append hs hne hds _
  | bare hne hfs => exact spanSign_append hs (.inr rfl) _

theorem IsMantissa.isEmpty_eq {whole fraction : List Char} (hm : IsMantissa whole fraction m) :
    (whole.isEmpty && fraction.isEmpty) = false := by
  cases hm with
  | whole hne hds => simp [hne]
  | pointed hne hds hfs => simp [hne]
  | bare hne hfs => simp [hne]

/-- **A whole text is read as a numeral just if it is one.** -/
theorem Numeral.ofText?_eq_some_iff : ofText? t = some n ↔ n.Written t := by
  constructor
  · intro h
    obtain ⟨negative, s, w, hsign, hs, rfl⟩ := exists_spanSign t
    rcases hm : spanMantissa w with ⟨whole, fraction, rest⟩
    simp only [ofText?, hsign, hm] at h
    split at h
    · cases h
    · next hok =>
      obtain ⟨e, he, rfl⟩ := Option.map_eq_some_iff.mp h
      obtain ⟨m, hmantissa, rfl⟩ := exists_mantissa hm (by simpa using hok)
      exact .mk hs hmantissa (isExponent_of_exponent? he)
  · rintro ⟨hs, hm, hx⟩
    simp only [ofText?, spanSign_mantissa_append hs hm, spanMantissa_append hm hx.stops, hm.isEmpty_eq,
      exponent?_of_isExponent hx]
    rfl

/-- What the cut leaves of a text follows a numeral. -/
theorem exists_of_skipNumeral? (h : skipNumeral? u = some v) : ∃ t, IsNumeral t ∧ u = t ++ v := by
  obtain ⟨negative, s, w, hsign, hs, rfl⟩ := exists_spanSign u
  rcases hm : spanMantissa w with ⟨whole, fraction, rest⟩
  simp only [skipNumeral?, hsign, hm] at h
  split at h
  · cases h
  · next hok =>
    cases h
    obtain ⟨m, hmantissa, rfl⟩ := exists_mantissa hm (by simpa using hok)
    obtain ⟨x, e, hx, hrest⟩ := exists_exponent rest
    refine ⟨s ++ (m ++ x), ⟨_, .mk hs hmantissa hx⟩, ?_⟩
    rw [List.append_assoc, List.append_assoc, ← hrest]

/-- What the cut leaves of a text is no longer than what any numeral at its start leaves. -/
theorem skipNumeral?_of_written (h : n.Written t) (v : List Char) :
    ∃ w, skipNumeral? (t ++ v) = some w ∧ w.length ≤ v.length := by
  obtain ⟨hs, hm, hx⟩ := h
  rename_i negative whole fraction s m x e
  rw [List.append_assoc, List.append_assoc]
  unfold skipNumeral?
  rw [spanSign_mantissa_append hs hm]
  cases hx with
  | absent =>
    -- The mantissa may go on, and an exponent may follow, in what stands after the numeral.
    obtain ⟨whole', fraction', rest, hspan, hne, hle⟩ := exists_spanMantissa hm v
    have hemp : (whole'.isEmpty && fraction'.isEmpty) = false := by
      simpa [List.isEmpty_eq_false_iff] using hne
    have hskip := length_skipExponent_append_le .absent rest
    refine ⟨skipExponent rest, ?_, Nat.le_trans hskip hle⟩
    simp only [List.nil_append, hspan, hemp]
    rfl
  | @marked c negative' s' ds hc hs' hne hds =>
    have hx : IsExponent _ (c :: (s' ++ ds)) := .marked hc hs' hne hds
    refine ⟨skipExponent (c :: (s' ++ ds) ++ v), ?_, length_skipExponent_append_le hx v⟩
    simp only [spanMantissa_append hm (stops_mark hc (s' ++ ds ++ v)), List.cons_append, hm.isEmpty_eq]
    rfl

/-- The cut takes the longest numeral off the start of a text. -/
theorem exists_isLongest (h : skipNumeral? u = some v) : ∃ t, IsLongest u t ∧ u = t ++ v := by
  obtain ⟨t, ht, rfl⟩ := exists_of_skipNumeral? h
  refine ⟨t, ⟨List.prefix_append t v, ht, ?_⟩, rfl⟩
  rintro t' ⟨v', hv'⟩ ⟨n', hn'⟩
  obtain ⟨w, hw, hle⟩ := skipNumeral?_of_written hn' v'
  rw [hv', h] at hw
  cases hw
  have hlen := congrArg List.length hv'
  rw [List.length_append, List.length_append] at hlen
  omega

theorem exists_skipNumeral? (hp : t <+: u) (ht : IsNumeral t) : ∃ v, skipNumeral? u = some v := by
  obtain ⟨w, rfl⟩ := hp
  obtain ⟨n, hn⟩ := ht
  obtain ⟨v, hv, -⟩ := skipNumeral?_of_written hn w
  exact ⟨v, hv⟩

theorem IsLongest.unique {t' : List Char} (h : IsLongest u t) (h' : IsLongest u t') : t = t' := by
  have hlen : t.length = t'.length :=
    Nat.le_antisymm (h'.longest t h.isPrefix h.isNumeral) (h.longest t' h'.isPrefix h'.isNumeral)
  exact (List.prefix_of_prefix_length_le h.isPrefix h'.isPrefix (Nat.le_of_eq hlen)).eq_of_length hlen

/-! ### Final points -/

theorem dropPoints_append_digits (hne : ds ≠ []) (hds : ∀ c ∈ ds, c.isDigit = true) (w : List Char) :
    dropPoints (w ++ ds) = w ++ ds := by
  have hlast : ds.getLast hne ≠ '.' := by
    intro hpoint
    have hdigit := hds _ (List.getLast_mem hne)
    rw [hpoint] at hdigit
    cases hdigit
  rw [← List.dropLast_append_getLast hne, ← List.append_assoc]
  exact List.rdropWhile_concat_neg _ _ _ (by simpa using hlast)

theorem dropPoints_append_point (w : List Char) : dropPoints (w ++ ['.']) = dropPoints w := by
  simp [dropPoints]

/-- A point at the end of a numeral can be left out, and there is one at most. -/
theorem Numeral.Written.dropPoints (h : n.Written t) :
    n.Written (dropPoints t) ∧ (t = Number.dropPoints t ∨ t = Number.dropPoints t ++ ['.']) := by
  obtain @⟨negative, whole, fraction, s, m, x, e, hs, hm, hx⟩ := h
  have hkept {w ds : List Char} (heq : s ++ (m ++ x) = w ++ ds) (hne : ds ≠ [])
      (hds : ∀ c ∈ ds, c.isDigit = true) :
      Written ⟨negative, whole, fraction, e⟩ (Number.dropPoints (s ++ (m ++ x))) ∧
        (s ++ (m ++ x) = Number.dropPoints (s ++ (m ++ x)) ∨
          s ++ (m ++ x) = Number.dropPoints (s ++ (m ++ x)) ++ ['.']) := by
    rw [heq, dropPoints_append_digits hne hds, ← heq]
    exact ⟨.mk hs hm hx, .inl rfl⟩
  cases hx with
  | @marked c _ s' ds hc hs' hne hds => exact hkept (w := s ++ (m ++ c :: s')) (by simp) hne hds
  | absent =>
    cases hm with
    | whole hne hds => exact hkept (w := s) (by simp) hne hds
    | pointed hne hds hfs =>
      by_cases hfs' : fraction = []
      · subst hfs'
        have hdrop : Number.dropPoints (s ++ (whole ++ ['.'])) = s ++ whole := by
          rw [← List.append_assoc, dropPoints_append_point, dropPoints_append_digits hne hds]
        have hwhole : Written ⟨negative, whole, [], 0⟩ (s ++ (whole ++ [])) :=
          .mk hs (.whole hne hds) .absent
        rw [List.append_nil] at hwhole
        rw [List.append_nil, hdrop]
        exact ⟨hwhole, .inr (List.append_assoc _ _ _).symm⟩
      · exact hkept (w := s ++ (whole ++ ['.'])) (by simp) hfs' hfs
    | bare hne hfs => exact hkept (w := s ++ ['.']) (by simp) hne hfs

/-! ### The start of a text -/

theorem exists_numeralText? (h : skipNumeral? (trimStart cs) = some v) :
    ∃ t, IsLongest (trimStart cs) t ∧ numeralText? cs = some (dropPoints t) := by
  obtain ⟨t, ht, hu⟩ := exists_isLongest h
  have htake : (trimStart cs).take ((trimStart cs).length - v.length) = t := by
    rw [hu]
    simp
  refine ⟨t, ht, ?_⟩
  simp only [numeralText?, h, Option.map_some, htake]

theorem numeralText?_eq_some_iff : numeralText? cs = some t ↔
    ∃ t', IsLongest (trimStart cs) t' ∧ t = dropPoints t' := by
  constructor
  · intro h
    obtain ⟨v, hskip, -⟩ := Option.map_eq_some_iff.mp h
    obtain ⟨t', ht', htext⟩ := exists_numeralText? hskip
    exact ⟨t', ht', Option.some.inj (h.symm.trans htext)⟩
  · rintro ⟨t', ht', rfl⟩
    obtain ⟨v, hskip⟩ := exists_skipNumeral? ht'.isPrefix ht'.isNumeral
    obtain ⟨t, ht, htext⟩ := exists_numeralText? hskip
    rw [ht'.unique ht, htext]

theorem numeralText?_eq_none_iff : numeralText? cs = none ↔
    ∀ t, t <+: trimStart cs → ¬ IsNumeral t := by
  rw [numeralText?, Option.map_eq_none_iff]
  constructor
  · intro hnone t hp ht
    obtain ⟨v, hv⟩ := exists_skipNumeral? hp ht
    rw [hnone] at hv
    cases hv
  · intro hno
    cases hskip : skipNumeral? (trimStart cs) with
    | none => rfl
    | some v =>
      obtain ⟨t, ht, -⟩ := exists_isLongest hskip
      exact absurd ht.isNumeral (hno t ht.isPrefix)

theorem readDecimal?_of_written (h : n.Written t) : readDecimal? t = some n.toFloat := by
  rw [readDecimal?, Numeral.ofText?_eq_some_iff.mpr h]
  rfl

theorem decimalPrefix_of_isLongest (ht : IsLongest (trimStart cs) t) (hn : n.Written t) :
    decimalPrefix cs = some n.toFloat := by
  rw [decimalPrefix, numeralText?_eq_some_iff.mpr ⟨t, ht, rfl⟩, Option.bind_some,
    readDecimal?_of_written hn.dropPoints.1]

/-- **The longest numeral is read.**  There is a decimal at the start of a text just if the text, after
its blanks, begins with a numeral, and it is then the value of the longest numeral there.  The text that
is read as a whole is that numeral, except for a point at its end.  So it is always a numeral, and what
was found at the start of a text is never lost when it is read. -/
theorem decimalPrefix_longest (cs : List Char) :
    (decimalPrefix cs = none ↔ ∀ t, t <+: trimStart cs → ¬ IsNumeral t) ∧
    (∀ x, decimalPrefix cs = some x ↔
      ∃ t, ∃ n : Numeral, IsLongest (trimStart cs) t ∧ n.Written t ∧ n.toFloat = x) ∧
    (∀ t, numeralText? cs = some t → ∃ t', ∃ n : Numeral, IsLongest (trimStart cs) t' ∧
      (t' = t ∨ t' = t ++ ['.']) ∧ n.Written t' ∧ n.Written t ∧ readDecimal? t = some n.toFloat) := by
  have htext {t : List Char} (h : numeralText? cs = some t) : ∃ t', ∃ n : Numeral,
      IsLongest (trimStart cs) t' ∧ n.Written t' ∧ t = dropPoints t' := by
    obtain ⟨t', ht', rfl⟩ := numeralText?_eq_some_iff.mp h
    obtain ⟨n, hn⟩ := ht'.isNumeral
    exact ⟨t', n, ht', hn, rfl⟩
  refine ⟨⟨fun h => ?_, fun h => ?_⟩, fun x => ⟨fun h => ?_, ?_⟩, fun t h => ?_⟩
  · rw [← numeralText?_eq_none_iff, Option.eq_none_iff_forall_ne_some]
    intro t ht
    obtain ⟨t', n, hlongest, hn, -⟩ := htext ht
    rw [decimalPrefix_of_isLongest hlongest hn] at h
    cases h
  · rw [decimalPrefix, numeralText?_eq_none_iff.mpr h]
    rfl
  · obtain ⟨t, ht, -⟩ := Option.bind_eq_some_iff.mp h
    obtain ⟨t', n, hlongest, hn, -⟩ := htext ht
    rw [decimalPrefix_of_isLongest hlongest hn] at h
    exact ⟨t', n, hlongest, hn, Option.some.inj h⟩
  · rintro ⟨t, n, hlongest, hn, rfl⟩
    exact decimalPrefix_of_isLongest hlongest hn
  · obtain ⟨t', n, hlongest, hn, rfl⟩ := htext h
    obtain ⟨hdropped, hpoint⟩ := hn.dropPoints
    exact ⟨t', n, hlongest, hpoint, hn, hdropped, readDecimal?_of_written hdropped⟩

end Stackline.Number
