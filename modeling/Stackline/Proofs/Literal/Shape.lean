import Stackline.Literal.Basic
import Stackline.Proofs.Literal.Quoted
import Stackline.Proofs.Text

/-!
# The shape of literals

`Reads` lists how a text is read as a value, and `read_eq_ok_iff` says that a literal is such a text
with blanks around it, or the bare word `NULL`.  A literal either stands in quotes, or has no quote
and no comma in it (`shape_of_readTrimmed`): the readers of numbers and of words pass over `Bare`
characters only, and a text in quotes ends at the last character, since what is read has no blanks
around it.
-/

namespace Stackline.Literal

open Number Text

variable {v : Value} {cs rest : List Char}

/-! ### Bare characters -/

/-- A character other than a quote and a comma. -/
def Bare (c : Char) : Prop := c ≠ '"' ∧ c ≠ ','

instance (c : Char) : Decidable (Bare c) := inferInstanceAs (Decidable (_ ∧ _))

/-- `rest` is what is left of a text after some bare characters. -/
def Passes (cs rest : List Char) : Prop := ∃ u, cs = u ++ rest ∧ ∀ c ∈ u, Bare c

theorem Passes.refl (cs : List Char) : Passes cs cs := ⟨[], rfl, nofun⟩

theorem Passes.trans {cs₁ cs₂ cs₃ : List Char} (h : Passes cs₁ cs₂) (h' : Passes cs₂ cs₃) :
    Passes cs₁ cs₃ := by
  obtain ⟨u, rfl, hu⟩ := h
  obtain ⟨u', rfl, hu'⟩ := h'
  refine ⟨u ++ u', (List.append_assoc ..).symm, fun c hc => ?_⟩
  rcases List.mem_append.mp hc with hc | hc
  · exact hu c hc
  · exact hu' c hc

theorem Passes.cons {c : Char} (hc : Bare c) (h : Passes cs rest) : Passes (c :: cs) rest := by
  obtain ⟨u, rfl, hu⟩ := h
  exact ⟨c :: u, rfl, List.forall_mem_cons.mpr ⟨hc, hu⟩⟩

theorem bare_of_isDigit {c : Char} (h : c.isDigit = true) : Bare c := by
  constructor <;> rintro rfl <;> exact absurd h (by decide)

theorem passes_spanDigits (cs : List Char) : Passes cs (spanDigits cs).2 := by
  unfold spanDigits
  rw [List.span_eq_takeWhile_dropWhile]
  refine ⟨cs.takeWhile Char.isDigit, List.takeWhile_append_dropWhile.symm, fun c hc => ?_⟩
  exact bare_of_isDigit (List.all_eq_true.mp List.all_takeWhile c hc)

theorem passes_spanSign (cs : List Char) : Passes cs (spanSign cs).2 := by
  unfold spanSign
  split
  · split
    · next hc => exact .cons (hc ▸ by decide) (.refl _)
    · split
      · next hc => exact .cons (hc ▸ by decide) (.refl _)
      · exact .refl _
  · exact .refl _

/-! ### Numbers and words -/

theorem passes_scaled {negative : Bool} {n : Nat} {e : Int}
    (h : scaled negative n e cs = .ok (v, rest)) : Passes cs rest := by
  unfold scaled at h
  split at h
  · cases h
    exact .refl _
  · cases h

theorem passes_exponentDigits {e n : Nat} (h : exponentDigits e cs = .ok (n, rest)) :
    Passes cs rest := by
  fun_induction exponentDigits e cs with
  | case1 e =>
    cases h
    exact .refl _
  | case2 e c cs hc next hle ih => exact .cons (bare_of_isDigit hc) (ih h)
  | case3 e c cs hc next hle => cases h
  | case4 e c cs hc =>
    cases h
    exact .refl _

/-- Also where an exponent is too great, only digits have been passed. -/
theorem passes_exponentDigits_of_error {e : Nat} (h : exponentDigits e cs = .error rest) :
    Passes cs rest := by
  fun_induction exponentDigits e cs with
  | case1 e => cases h
  | case2 e c cs hc next hle ih => exact .cons (bare_of_isDigit hc) (ih h)
  | case3 e c cs hc next hle =>
    cases h
    exact .cons (bare_of_isDigit hc) (.refl _)
  | case4 e c cs hc => cases h

theorem passes_exponent {negative : Bool} {n : Nat} {e : Int}
    (h : exponent negative n e cs = .ok (v, rest)) : Passes cs rest := by
  refine (passes_spanSign cs).trans ?_
  unfold exponent at h
  generalize spanSign cs = sign at h ⊢
  obtain ⟨minus, digits⟩ := sign
  simp only at h ⊢
  split at h
  · cases h
  · split at h
    · split at h
      · next hd => exact (passes_exponentDigits hd).trans (passes_scaled h)
      · next hd =>
        split at h
        · cases h
        · cases h
          exact (passes_exponentDigits_of_error hd).trans (passes_spanDigits _)
    · cases h

/-- The mark of an exponent. -/
theorem bare_of_mark {c : Char} (h : c = 'e' ∨ c = 'E') : Bare c := by
  rcases h with rfl | rfl <;> decide

theorem passes_afterFraction {negative : Bool} {n : Nat} {e : Int}
    (h : afterFraction negative n e cs = .ok (v, rest)) : Passes cs rest := by
  unfold afterFraction at h
  split at h
  · exact passes_scaled h
  · split at h
    · next hc => exact .cons (bare_of_mark hc) (passes_exponent h)
    · exact passes_scaled h

theorem passes_fraction {negative : Bool} {n : Nat} {e : Int}
    (h : fraction negative n e cs = .ok (v, rest)) : Passes cs rest := by
  refine (passes_spanDigits cs).trans ?_
  unfold fraction at h
  simp only at h
  split at h
  · cases h
  · exact passes_afterFraction h

theorem passes_withoutPoint {negative : Bool} {n left : Nat}
    (h : withoutPoint negative n left cs = .ok (v, rest)) : Passes cs rest := by
  unfold withoutPoint at h
  split at h
  · cases h
    exact .refl _
  · exact passes_scaled h

theorem passes_afterWhole {negative : Bool} {n left : Nat}
    (h : afterWhole negative n left cs = .ok (v, rest)) : Passes cs rest := by
  unfold afterWhole at h
  split at h
  · exact passes_withoutPoint h
  · split at h
    · next hc => exact .cons (hc ▸ by decide) (passes_fraction h)
    · split at h
      · next hc => exact .cons (bare_of_mark hc) (passes_exponent h)
      · exact passes_withoutPoint h

/-- A number consists of bare characters. -/
theorem passes_number {negative : Bool} (h : number negative cs = .ok (v, rest)) :
    Passes cs rest := by
  unfold number at h
  split at h
  · cases h
  · split at h
    · next hc =>
      refine .cons (hc ▸ by decide) ?_
      split at h
      · split at h
        · cases h
        · exact passes_afterWhole h
      · exact passes_afterWhole h
    · split at h
      · exact (passes_spanDigits _).trans (passes_afterWhole h)
      · cases h

/-! ### Values that are no collections -/

/-- How a text begins that is read as a value, other than a list or an object: the text, the value
and the rest. -/
inductive Reads : List Char → Value → List Char → Prop
  | null {rest : List Char} : Reads ('n' :: 'u' :: 'l' :: 'l' :: rest) .null rest
  | truth {rest : List Char} : Reads ('t' :: 'r' :: 'u' :: 'e' :: rest) (.ofBool true) rest
  | falsehood {rest : List Char} :
      Reads ('f' :: 'a' :: 'l' :: 's' :: 'e' :: rest) (.ofBool false) rest
  | negative {cs rest : List Char} {v : Value} (h : number true cs = .ok (v, rest)) :
      Reads ('-' :: cs) v rest
  | positive {c : Char} {cs rest : List Char} {v : Value} (hc : c.isDigit = true)
      (h : number false (c :: cs) = .ok (v, rest)) : Reads (c :: cs) v rest
  | quoted {cs t rest : List Char} (h : quotedBody cs = .ok (t, rest)) :
      Reads ('"' :: cs) (.text (.ofList t)) rest

theorem word_eq_ok_iff {w : Value} {es : List Char} :
    word w es cs = .ok (v, rest) ↔ cs = es ++ rest ∧ v = w := by
  fun_induction word w es cs with
  | case1 cs => simp [eq_comm, and_comm]
  | case2 e es => simp [stopAt]
  | case3 e es cs ih => simpa using ih
  | case4 e es c cs hc => simp [stopIn, hc]

theorem scalarOf_eq_ok_iff {r : Reading Value} :
    scalarOf r = .ok (.scalar v, rest) ↔ r = .ok (v, rest) := by
  rcases r with s | ⟨w, rest'⟩ <;> simp [scalarOf]

theorem textOf_eq_ok_iff {r : Reading (List Char)} :
    textOf r = .ok (.scalar v, rest) ↔ ∃ t, r = .ok (t, rest) ∧ v = .text (.ofList t) := by
  rcases r with s | ⟨t, rest'⟩ <;> simp [textOf, eq_comm, and_comm]

theorem collectionOf_ne_scalar {b : Bracket} {member : List Char → Reading Document} :
    collectionOf b member cs ≠ .ok (.scalar v, rest) := by
  unfold collectionOf
  split <;> nofun

theorem reads_of_documentWith {nested : Option (List Char → Reading Document)}
    (h : documentWith nested cs = .ok (.scalar v, rest)) : Reads (skipSpace cs) v rest := by
  unfold documentWith at h
  split at h
  · cases h
  next c cs hcs =>
  rw [hcs]
  split at h
  · next hc =>
    obtain ⟨rfl, rfl⟩ := word_eq_ok_iff.mp (scalarOf_eq_ok_iff.mp h)
    exact hc ▸ .null
  split at h
  · next hc =>
    obtain ⟨rfl, rfl⟩ := word_eq_ok_iff.mp (scalarOf_eq_ok_iff.mp h)
    exact hc ▸ .truth
  split at h
  · next hc =>
    obtain ⟨rfl, rfl⟩ := word_eq_ok_iff.mp (scalarOf_eq_ok_iff.mp h)
    exact hc ▸ .falsehood
  split at h
  · next hc => exact hc ▸ .negative (scalarOf_eq_ok_iff.mp h)
  split at h
  · next hc => exact .positive hc (scalarOf_eq_ok_iff.mp h)
  split at h
  · next hc =>
    obtain ⟨t, ht, rfl⟩ := textOf_eq_ok_iff.mp h
    exact hc ▸ .quoted ht
  split at h
  · split at h
    · exact absurd h collectionOf_ne_scalar
    · cases h
  · cases h

/-- A digit begins no word and no text in quotes. -/
theorem documentWith_digit {nested : Option (List Char → Reading Document)} {c : Char}
    (hc : c.isDigit = true) (hcs : skipSpace cs = c :: rest) :
    documentWith nested cs = scalarOf (number false (c :: rest)) := by
  have hne : ∀ d : Char, d.isDigit = false → c ≠ d := by
    rintro d hd rfl
    rw [hc] at hd
    cases hd
  unfold documentWith
  rw [hcs]
  simp [hc, hne 'n' (by decide), hne 't' (by decide), hne 'f' (by decide), hne '-' (by decide)]

theorem documentWith_of_reads {nested : Option (List Char → Reading Document)}
    (h : Reads (skipSpace cs) v rest) : documentWith nested cs = .ok (.scalar v, rest) := by
  generalize hcs : skipSpace cs = cs' at h
  cases h with
  | null | truth | falsehood =>
    unfold documentWith
    rw [hcs]
    simp [scalarOf, word]
  | negative h =>
    unfold documentWith
    rw [hcs]
    simp [scalarOf, h]
  | positive hc h => rw [documentWith_digit hc hcs, scalarOf_eq_ok_iff, h]
  | quoted h =>
    unfold documentWith
    rw [hcs]
    simp [textOf, h]

/-- A value that is no collection is bare or a text in quotes. -/
theorem Reads.shape (h : Reads cs v rest) :
    Passes cs rest ∨ ∃ b, cs = '"' :: b ++ '"' :: rest := by
  cases h with
  | null => exact .inl ⟨['n', 'u', 'l', 'l'], rfl, by simp [Bare]⟩
  | truth => exact .inl ⟨['t', 'r', 'u', 'e'], rfl, by simp [Bare]⟩
  | falsehood => exact .inl ⟨['f', 'a', 'l', 's', 'e'], rfl, by simp [Bare]⟩
  | negative h => exact .inl (.cons (by decide) (passes_number h))
  | positive _ h => exact .inl (passes_number h)
  | quoted h =>
    obtain ⟨items, -, rfl⟩ := quotedBody_eq_ok_iff.mp h
    exact .inr ⟨items.flatten, rfl⟩

theorem Reads.suffix (h : Reads cs v rest) : rest <:+ cs := by
  rcases h.shape with ⟨u, rfl, -⟩ | ⟨b, rfl⟩
  · exact List.suffix_append u rest
  · exact ⟨'"' :: b ++ ['"'], by simp⟩

/-! ### Literals -/

theorem exists_documentWith (depth : Nat) : ∃ nested, document depth = documentWith nested := by
  cases depth with
  | zero => exact ⟨none, rfl⟩
  | succ depth => exact ⟨some (document depth), rfl⟩

theorem isBlank_of_isSpace {c : Char} (h : isSpace c = true) : isBlank c = true := by
  simp only [isSpace, Bool.or_eq_true, decide_eq_true_eq] at h
  rcases h with ((rfl | rfl) | rfl) | rfl <;> decide

theorem skipSpace_of_trim (ht : trim cs = cs) : skipSpace cs = cs := by
  have hstart : trimStart cs = cs := by rw [← ht, trimStart_trim]
  cases cs with
  | nil => rfl
  | cons c cs =>
    have hc := List.head?_dropWhile_not isBlank (c :: cs)
    rw [show (c :: cs).dropWhile isBlank = c :: cs from hstart] at hc
    replace hc : isBlank c = false := hc
    refine List.dropWhile_cons_of_neg fun hs => ?_
    rw [isBlank_of_isSpace hs] at hc
    cases hc

/-- Nothing but blanks at the end of a text that does not end in a blank is nothing. -/
theorem eq_nil_of_firm (hfirm : Firm cs) (hsuffix : rest <:+ cs) (hspaces : skipSpace rest = []) :
    rest = [] := by
  cases hlast : rest.getLast? with
  | none => exact List.getLast?_eq_none_iff.mp hlast
  | some c =>
    have hspace := List.dropWhile_eq_nil_iff.mp hspaces c (List.mem_of_getLast? hlast)
    obtain ⟨u, rfl⟩ := hsuffix
    have hend := hfirm c (by rw [List.getLast?_append, hlast]; rfl)
    rw [isBlank_of_isSpace hspace] at hend
    cases hend

theorem wholeDocument_eq_scalar_iff (ht : trim cs = cs) :
    wholeDocument cs = .ok (.scalar v) ↔ Reads cs v [] := by
  obtain ⟨nested, hnested⟩ := exists_documentWith greatestDepth
  have hskip := skipSpace_of_trim ht
  unfold wholeDocument
  rw [hnested]
  constructor
  · intro h
    cases hd : documentWith nested cs with
    | error s =>
      rw [hd] at h
      cases h
    | ok r =>
      obtain ⟨d, rest⟩ := r
      simp only [hd, bind, Except.bind] at h
      split at h
      · next hrest =>
        cases h
        have hreads := reads_of_documentWith hd
        rw [hskip] at hreads
        -- what follows the value are blanks, but the text does not end in one
        obtain rfl := eq_nil_of_firm (ht ▸ firm_trimEnd _) hreads.suffix hrest
        exact hreads
      · cases h
  · intro h
    rw [documentWith_of_reads (hskip.symm ▸ h)]
    rfl

theorem readTrimmed_eq_ok_iff (ht : trim cs = cs) :
    readTrimmed cs = .ok v ↔ Reads cs v [] ∨ cs = ['N', 'U', 'L', 'L'] ∧ v = .null := by
  unfold readTrimmed
  split
  · next hcs =>
    subst hcs
    constructor
    · intro h
      cases h
      exact .inr ⟨rfl, rfl⟩
    · rintro (h | ⟨-, rfl⟩)
      · cases h with
        | positive hc _ => exact absurd hc (by decide)
      · rfl
  · next hcs =>
    rw [← wholeDocument_eq_scalar_iff ht]
    simp only [hcs, false_and, or_false]
    split
    · next hd => simp [hd]
    · next hd => simp [hd]
    · next hd => simp [hd]

/-- **What is read as a literal**, in terms of the text without the blanks around it. -/
theorem read_eq_ok_iff {s : String} : read s = .ok v ↔
    Reads (trim s.toList) v [] ∨ trim s.toList = ['N', 'U', 'L', 'L'] ∧ v = .null :=
  readTrimmed_eq_ok_iff (trim_trim _)

/-- **A literal is a text in quotes, or has no quote and no comma in it.** -/
theorem shape_of_readTrimmed (ht : trim cs = cs) (h : readTrimmed cs = .ok v) :
    (∀ c ∈ cs, Bare c) ∨ ∃ b, cs = '"' :: b ++ ['"'] := by
  rcases (readTrimmed_eq_ok_iff ht).mp h with hreads | ⟨rfl, -⟩
  · rcases hreads.shape with ⟨u, rfl, hu⟩ | hquoted
    · exact .inl (by simpa using hu)
    · exact .inr hquoted
  · exact .inl (by simp [Bare])

end Stackline.Literal
