import Mathlib.Data.List.TakeDrop
import Mathlib.Data.List.TakeWhile
import Stackline.Text.Blank
import Stackline.Text.Lines
import Stackline.Text.Word

/-!
# Blanks, words and lines

Trimming takes blanks from the ends of a text and nothing else, no character of a word is a blank,
and texts that are written one to a line are the lines of what is written.
-/

namespace Stackline.Text

/-! ### Blanks -/

/-- The text does not end in a blank. -/
def Firm (cs : List Char) : Prop := ∀ c, cs.getLast? = some c → isBlank c = false

theorem trimStart_suffix (cs : List Char) : trimStart cs <:+ cs := List.dropWhile_suffix _

theorem trimEnd_isPrefix (cs : List Char) : trimEnd cs <+: cs := by
  rw [← List.reverse_suffix, trimEnd, List.reverse_reverse]
  exact List.dropWhile_suffix _

theorem trim_isInfix (cs : List Char) : trim cs <:+: cs :=
  (trimEnd_isPrefix _).isInfix.trans (trimStart_suffix cs).isInfix

/-- Only blanks are trimmed off the end. -/
theorem exists_trimEnd (cs : List Char) :
    ∃ v, (∀ c ∈ v, isBlank c = true) ∧ cs = trimEnd cs ++ v := by
  refine ⟨(cs.reverse.takeWhile isBlank).reverse, fun c hc => ?_, ?_⟩
  · exact List.all_eq_true.mp List.all_takeWhile c (List.mem_reverse.mp hc)
  · rw [trimEnd, ← List.reverse_append, List.takeWhile_append_dropWhile, List.reverse_reverse]

/-- A text is its trimmed text with blanks around it. -/
theorem exists_trim (cs : List Char) :
    ∃ u v, (∀ c ∈ u, isBlank c = true) ∧ (∀ c ∈ v, isBlank c = true) ∧ cs = u ++ trim cs ++ v := by
  have hs : cs.takeWhile isBlank ++ trimStart cs = cs := List.takeWhile_append_dropWhile
  obtain ⟨v, hv, he⟩ := exists_trimEnd (trimStart cs)
  refine ⟨cs.takeWhile isBlank, v, fun c hc => ?_, hv, ?_⟩
  · exact List.all_eq_true.mp List.all_takeWhile c hc
  · rw [List.append_assoc, trim, ← he, hs]

theorem trimStart_cons {c : Char} (hc : isBlank c = false) (cs : List Char) :
    trimStart (c :: cs) = c :: cs := by
  simp [trimStart, hc]

theorem trimStart_cons_blank {c : Char} (hc : isBlank c = true) (cs : List Char) :
    trimStart (c :: cs) = trimStart cs := by
  simp [trimStart, hc]

theorem firm_trimEnd (cs : List Char) : Firm (trimEnd cs) := by
  intro c hc
  rw [trimEnd, List.getLast?_reverse] at hc
  have h := List.head?_dropWhile_not isBlank cs.reverse
  rw [hc] at h
  simpa using h

theorem Firm.trimEnd_eq {cs : List Char} (h : Firm cs) : trimEnd cs = cs := by
  cases hcs : cs.reverse with
  | nil => simp_all [trimEnd]
  | cons c ds =>
    have hc : isBlank c = false := h c (by rw [← List.head?_reverse, hcs]; rfl)
    rw [trimEnd, hcs, List.dropWhile_cons_of_neg (by simp [hc]), ← hcs, List.reverse_reverse]

theorem trimStart_append (u v : List Char) :
    trimStart (u ++ v) = if (trimStart u).isEmpty then trimStart v else trimStart u ++ v :=
  List.dropWhile_append

theorem trimStart_append_of_ne {u : List Char} (hu : trimStart u ≠ []) (v : List Char) :
    trimStart (u ++ v) = trimStart u ++ v := by
  rw [trimStart_append, if_neg (by simpa using hu)]

theorem trimStart_blanks {v : List Char} (hv : ∀ c ∈ v, isBlank c = true) : trimStart v = [] :=
  List.dropWhile_eq_nil_iff.mpr hv

theorem trimEnd_append_blanks {v : List Char} (hv : ∀ c ∈ v, isBlank c = true) (u : List Char) :
    trimEnd (u ++ v) = trimEnd u := by
  rw [trimEnd, List.reverse_append, List.dropWhile_append_of_pos (by simpa using hv)]
  rfl

theorem trim_append_blanks {v : List Char} (hv : ∀ c ∈ v, isBlank c = true) (u : List Char) :
    trim (u ++ v) = trim u := by
  rw [trim, trim, trimStart_append]
  split
  · rename_i h
    rw [trimStart_blanks hv, List.isEmpty_iff.mp h]
  · exact trimEnd_append_blanks hv _

theorem Firm.append {v : List Char} (h : Firm v) (hne : v ≠ []) (u : List Char) : Firm (u ++ v) := by
  intro c hc
  rw [List.getLast?_append] at hc
  cases hv : v.getLast? with
  | none => exact absurd (List.getLast?_eq_none_iff.mp hv) hne
  | some d =>
    rw [hv] at hc
    exact Option.some.inj hc ▸ h d hv

/-- Trimming keeps the first character that is no blank where it is. -/
theorem trimStart_trim (cs : List Char) : trimStart (trim cs) = trim cs := by
  cases ht : trim cs with
  | nil => rfl
  | cons c ds =>
    have hp : c :: ds <+: trimStart cs := ht ▸ trimEnd_isPrefix _
    obtain ⟨v, hv⟩ := hp
    have h := List.head?_dropWhile_not isBlank cs
    rw [show cs.dropWhile isBlank = c :: ds ++ v from hv.symm] at h
    exact trimStart_cons (by simpa using h) ds

theorem trim_trim (cs : List Char) : trim (trim cs) = trim cs := by
  have h : Firm (trim cs) := firm_trimEnd _
  rw [trim.eq_def (trim cs), trimStart_trim, h.trimEnd_eq]

/-! ### Spans -/

/-- A span ends before the first character that does not belong to it. -/
theorem span_append {f : Char → Bool} {u v : List Char} (hu : ∀ c ∈ u, f c = true)
    (hv : ∀ c, v.head? = some c → f c = false) : (u ++ v).span f = (u, v) := by
  rw [List.span_eq_takeWhile_dropWhile, List.takeWhile_append_of_pos hu,
    List.dropWhile_append_of_pos hu]
  cases v with
  | nil => simp
  | cons c v =>
    have hc : ¬ f c = true := by simp [hv c rfl]
    rw [List.takeWhile_cons_of_neg hc, List.dropWhile_cons_of_neg hc, List.append_nil]

/-- What does not begin with a character of a span does not change it. -/
theorem span_append_right {f : Char → Bool} {v : List Char}
    (hv : ∀ c, v.head? = some c → f c = false) (u : List Char) :
    (u ++ v).span f = ((u.span f).1, (u.span f).2 ++ v) := by
  induction u with
  | nil => exact span_append (by simp) hv
  | cons c u ih =>
    rw [List.span_eq_takeWhile_dropWhile, List.span_eq_takeWhile_dropWhile] at ih ⊢
    by_cases hc : f c = true
    · simpa [hc] using ih
    · simp [hc]

/-! ### Words -/

/-- The ranges of two tables have no code point in common. -/
def Ranges.Apart (t u : Ranges) : Prop := ∀ r ∈ t, ∀ s ∈ u, r.2 < s.1 ∨ s.2 < r.1

instance (t u : Ranges) : Decidable (t.Apart u) :=
  inferInstanceAs (Decidable (∀ r ∈ t, ∀ s ∈ u, r.2 < s.1 ∨ s.2 < r.1))

theorem Ranges.exists_of_contains {t : Ranges} {n : Nat} (h : t.contains n = true) :
    ∃ r ∈ t, r.1 ≤ n ∧ n ≤ r.2 := by
  induction t with
  | nil => simp [contains] at h
  | cons r t ih =>
    obtain ⟨lo, hi⟩ := r
    rw [contains] at h
    split at h
    · cases h
    · split at h
      · exact ⟨(lo, hi), List.mem_cons_self, by simp only; omega, by assumption⟩
      · obtain ⟨r, hr, hn⟩ := ih h
        exact ⟨r, List.mem_cons_of_mem _ hr, hn⟩

theorem blanks_apart : blanks.Apart lettersAndDigits := by decide +kernel

theorem isBlank_of_mem {r : Nat × Nat} (hr : r ∈ lettersAndDigits) {c : Char}
    (h : r.1 ≤ c.toNat ∧ c.toNat ≤ r.2) : isBlank c = false := by
  cases hb : isBlank c with
  | false => rfl
  | true =>
    obtain ⟨s, hs, hs1, hs2⟩ := Ranges.exists_of_contains hb
    have := blanks_apart s hs r hr
    omega

theorem isBlank_of_isDigit {c : Char} (h : c.isDigit = true) : isBlank c = false :=
  isBlank_of_mem List.mem_cons_self (Char.isDigit_iff_toNat.mp h)

/-- No character of a word is a blank. -/
theorem isBlank_of_isWordChar {c : Char} (h : isWordChar c = true) : isBlank c = false := by
  rw [isWordChar, Bool.or_eq_true, decide_eq_true_eq] at h
  rcases h with h | rfl
  · obtain ⟨r, hr, hn⟩ := Ranges.exists_of_contains h
    exact isBlank_of_mem hr hn
  · decide

theorem isWordChar_of_isBlank {c : Char} (h : isBlank c = true) : isWordChar c = false := by
  rw [← Bool.not_eq_true]
  intro hw
  rw [isBlank_of_isWordChar hw] at h
  cases h

/-! ### Lines -/

theorem withoutReturn_reverse {cs : List Char} (h : Firm cs) : withoutReturn cs.reverse = cs := by
  unfold withoutReturn
  split
  · rename_i ds hcs
    have : isBlank '\r' = false := h '\r' (by rw [← List.head?_reverse, hcs]; rfl)
    exact absurd this (by decide)
  · exact List.reverse_reverse cs

theorem linesFrom_append {l : List Char} (hl : '\n' ∉ l) (gathered rest : List Char) :
    linesFrom gathered (l ++ '\n' :: rest) =
      withoutReturn (l.reverse ++ gathered) :: linesFrom [] rest := by
  induction l generalizing gathered with
  | nil => simp [linesFrom]
  | cons c l ih =>
    have hc : c ≠ '\n' := fun he => hl (he ▸ List.mem_cons_self)
    have hl' : '\n' ∉ l := fun hm => hl (List.mem_cons_of_mem _ hm)
    rw [List.cons_append, linesFrom, if_neg hc, ih hl']
    simp

/-- Texts that end in no blank and hold no newline, each with a newline after it, are the lines of
the whole. -/
theorem lines_flatMap {ls : List (List Char)} (h : ∀ l ∈ ls, '\n' ∉ l ∧ Firm l) :
    lines (ls.flatMap (· ++ ['\n'])) = ls := by
  induction ls with
  | nil => rfl
  | cons l ls ih =>
    obtain ⟨hl, hf⟩ := h l List.mem_cons_self
    have hls := ih fun l' hl' => h l' (List.mem_cons_of_mem _ hl')
    rw [lines] at hls ⊢
    rw [List.flatMap_cons, List.append_assoc, List.singleton_append, linesFrom_append hl,
      List.append_nil, withoutReturn_reverse hf, hls]

/-- A text with a carriage return before every newline. -/
def withReturns (cs : List Char) : List Char :=
  cs.flatMap fun c => if c = '\n' then ['\r', '\n'] else [c]

/-- What does not see a carriage return at the end of a line sees the same lines in a text with
more carriage returns before its newlines. -/
theorem map_linesFrom_withReturns {α : Type} {f : List Char → α} (hf : ∀ l, f (l ++ ['\r']) = f l)
    (gathered cs : List Char) :
    (linesFrom gathered (withReturns cs)).map f = (linesFrom gathered cs).map f := by
  induction cs generalizing gathered with
  | nil => rfl
  | cons c cs ih =>
    by_cases hc : c = '\n'
    · have hcs : withReturns (c :: cs) = '\r' :: '\n' :: withReturns cs := by
        simp [withReturns, hc]
      have hline : f gathered.reverse = f (withoutReturn gathered) := by
        unfold withoutReturn
        split
        · rw [List.reverse_cons, hf]
        · rfl
      rw [hcs, linesFrom, if_neg (by decide), linesFrom, if_pos rfl, linesFrom, if_pos hc,
        List.map_cons, List.map_cons, ih]
      exact congrArg (· :: _) hline
    · have hcs : withReturns (c :: cs) = c :: withReturns cs := by simp [withReturns, hc]
      rw [hcs, linesFrom, if_neg hc, linesFrom, if_neg hc, ih]

theorem not_mem_withoutReturn {cs : List Char} (h : '\n' ∉ cs) : '\n' ∉ withoutReturn cs := by
  unfold withoutReturn
  split
  · simp_all
  · simpa using h

theorem not_mem_linesFrom {gathered cs l : List Char} (hg : '\n' ∉ gathered)
    (h : l ∈ linesFrom gathered cs) : '\n' ∉ l := by
  induction cs generalizing gathered with
  | nil =>
    rw [linesFrom] at h
    split at h
    · cases h
    · rw [List.mem_singleton.mp h]
      simpa using hg
  | cons c cs ih =>
    rw [linesFrom] at h
    split at h
    · rcases List.mem_cons.mp h with rfl | h
      · exact not_mem_withoutReturn hg
      · exact ih (List.not_mem_nil) h
    · rename_i hc
      exact ih (by simp [hg, Ne.symm hc]) h

/-- No line of a text holds a newline. -/
theorem not_mem_of_mem_lines {cs l : List Char} (h : l ∈ lines cs) : '\n' ∉ l :=
  not_mem_linesFrom List.not_mem_nil h

end Stackline.Text
