import Stackline.Proofs.SourceLine.Listing

/-!
# Layout

What ends a line is no part of what it holds: neither blanks, of which the carriage return before a
newline is one, nor a comment.  Blanks after the text that is left without its comment go to the
last parameter, which is trimmed (`ofBody_of_append_blanks`).  A comment that is put after a line is
found where it begins, or there is an earlier one, which takes it along.  Only where the line ends
in the word of comments does the space before the new comment make that word begin one, and then
the word is lost (`layout_irrelevant`).
-/

namespace Stackline.SourceLine

open Text Number

/-! ### Blanks at the end -/

/-- A line holds what it holds without its comment. -/
theorem ofBody_congr {cs ds : List Char}
    (h : withoutRemark (trimStart ds) = withoutRemark (trimStart cs)) (line : LineNumber) :
    ofBody line ds = ofBody line cs := by
  unfold ofBody
  rw [h]

/-- Blanks after what is left of a line without its comment do not change what the line holds. -/
theorem ofBody_of_append_blanks {cs ds v : List Char} (hv : ∀ c ∈ v, isBlank c = true)
    (h : withoutRemark (trimStart ds) = withoutRemark (trimStart cs) ++ v) (line : LineNumber) :
    ofBody line ds = ofBody line cs := by
  have hspan := span_append_right (f := isWordChar)
    (fun c hc => isWordChar_of_isBlank (hv c (List.mem_of_head? hc)))
    (withoutRemark (trimStart cs))
  unfold ofBody
  rw [h, hspan]
  generalize (withoutRemark (trimStart cs)).span isWordChar = parts
  obtain ⟨word, after⟩ := parts
  cases after with
  | nil =>
    cases v with
    | nil => rfl
    | cons c v =>
      have hparams : params (c :: v) = [] := params_append_blanks hv []
      simp [hv c List.mem_cons_self, hparams]
  | cons c after =>
    have hparams := params_append_blanks hv (c :: after)
    rw [List.cons_append] at hparams
    simp only [List.cons_append, hparams]

/-- A blank other than a space at the end of the text after the line number. -/
theorem ofBody_append_blank {d : Char} (hd : isBlank d = true) (hne : d ≠ ' ') (line : LineNumber)
    (cs : List Char) : ofBody line (cs ++ [d]) = ofBody line cs := by
  have hblank : ∀ c ∈ [d], isBlank c = true := by simpa using hd
  have hmem : d ∉ remark := by
    intro hm
    simp only [remark, List.mem_cons, List.not_mem_nil, or_false] at hm
    rcases hm with rfl | rfl | rfl | rfl
    · exact absurd hd (by decide)
    · exact absurd hd (by decide)
    · exact absurd hd (by decide)
    · exact hne rfl
  by_cases hcs : trimStart cs = []
  · have hds : trimStart (cs ++ [d]) = [] := by
      rw [trimStart_append, hcs]
      exact trimStart_blanks hblank
    exact ofBody_congr (by rw [hds, hcs]) line
  · have hds := trimStart_append_of_ne hcs [d]
    have hrem := hasRemark_append_cons hmem true (trimStart cs) []
    rw [hasRemark_nil, Bool.or_false] at hrem
    cases hb : hasRemark true (trimStart cs) with
    | true =>
      refine ofBody_congr ?_ line
      rw [hds, withoutRemark_append hb]
    | false =>
      refine ofBody_of_append_blanks hblank ?_ line
      rw [hds, withoutRemark_of_not (hrem.trans hb), withoutRemark_of_not hb]

/-! ### The line number -/

/-- The digits of the line number. -/
def numeral (s : List Char) : List Char := (spanDigits (trimStart s)).1

/-- What follows the line number. -/
def afterNumeral (s : List Char) : List Char := (spanDigits (trimStart s)).2

theorem ofChars_eq (s : List Char) :
    ofChars s =
      if (numeral s).isEmpty then other
      else if natOf (numeral s) < UInt32.size then
        ofBody (.ofNat (natOf (numeral s))) (afterNumeral s)
      else outOfRange (numeral s) := rfl

theorem ofChars_of_numeral_nil {s : List Char} (h : numeral s = []) : ofChars s = .other := by
  rw [ofChars_eq, h]
  rfl

theorem numeral_of_trimStart_nil {s : List Char} (h : trimStart s = []) : numeral s = [] := by
  rw [numeral, h]
  rfl

/-- A blank after a line that is not all blanks comes after the line number. -/
theorem numeral_append_blank {s : List Char} {d : Char} (hd : isBlank d = true)
    (hs : trimStart s ≠ []) (t : List Char) :
    numeral (s ++ d :: t) = numeral s ∧ afterNumeral (s ++ d :: t) = afterNumeral s ++ d :: t := by
  have hdigit : d.isDigit = false := by
    rw [← Bool.not_eq_true]
    intro hdig
    rw [isBlank_of_isDigit hdig] at hd
    cases hd
  have hspan : spanDigits (trimStart (s ++ d :: t)) =
      (numeral s, afterNumeral s ++ d :: t) := by
    rw [trimStart_append_of_ne hs]
    exact span_append_right (by simpa using hdigit) _
  constructor
  · rw [numeral, hspan]
  · rw [afterNumeral, hspan]

/-- What comes after a blank at the end of a line changes what the line holds only if it does so
after the line number. -/
theorem ofChars_append {s t : List Char} {d : Char} (hd : isBlank d = true) (ht : numeral t = [])
    (h : numeral s ≠ [] → ∀ line,
      ofBody line (afterNumeral s ++ d :: t) = ofBody line (afterNumeral s)) :
    ofChars (s ++ d :: t) = ofChars s := by
  by_cases hs : trimStart s = []
  · have hst : numeral (s ++ d :: t) = numeral t := by
      unfold numeral
      rw [trimStart_append, hs, ← trimStart_cons_blank hd t]
      rfl
    rw [ofChars_of_numeral_nil (hst.trans ht), ofChars_of_numeral_nil (numeral_of_trimStart_nil hs)]
  · obtain ⟨hnum, hafter⟩ := numeral_append_blank hd hs t
    by_cases hne : numeral s = []
    · rw [ofChars_of_numeral_nil (hnum.trans hne), ofChars_of_numeral_nil hne]
    · rw [ofChars_eq, ofChars_eq, hnum, hafter, h hne]

/-- A carriage return at the end of a line is as good as none. -/
theorem ofChars_append_return (s : List Char) : ofChars (s ++ ['\r']) = ofChars s :=
  ofChars_append (by decide) rfl fun _ line => ofBody_append_blank (by decide) (by decide) line _

/-! ### A comment at the end -/

/-- The line has a number, and what follows that and blanks ends in the word of comments. -/
def Dangling (s : List Char) : Prop := numeral s ≠ [] ∧ Dangles (trimStart (afterNumeral s))

theorem ofBody_append_remark {cs : List Char} (h : ¬ Dangles (trimStart cs)) (line : LineNumber)
    (c : List Char) : ofBody line (cs ++ ' ' :: (remark ++ c)) = ofBody line cs := by
  by_cases hcs : trimStart cs = []
  · refine ofBody_congr ?_ line
    rw [trimStart_append, hcs]
    rfl
  · have hds := trimStart_append_of_ne hcs (' ' :: (remark ++ c))
    cases hb : hasRemark true (trimStart cs ++ [' ']) with
    | true =>
      -- the comment was there before the space
      have hrem : hasRemark true (trimStart cs) = true :=
        (hasRemark_or_dangles hb).resolve_right fun ⟨u, hu, _, hlast⟩ => h ⟨u, hu, hlast⟩
      refine ofBody_congr ?_ line
      rw [hds, withoutRemark_append hrem]
    | false =>
      have hrem : hasRemark true (trimStart cs) = false := by
        rw [← Bool.not_eq_true]
        intro ht
        rw [hasRemark_append_left ht] at hb
        cases hb
      obtain ⟨v, hv, he⟩ := exists_trimEnd (trimStart cs)
      have hwith : withoutRemark (trimStart (cs ++ ' ' :: (remark ++ c))) =
          trimEnd (trimStart cs) := by
        rw [hds, withoutRemark, beforeRemark?_append_remark hb]
        exact trimEnd_append_blanks (fun a ha => by cases List.mem_singleton.mp ha; rfl) _
      refine (ofBody_of_append_blanks hv ?_ line).symm
      rw [hwith, withoutRemark_of_not hrem]
      exact he

/-- The characters of an instruction other than blanks and commas are those of its line. -/
theorem ink_of_ofBody {line : LineNumber} {cs : List Char} {i : Instruction}
    (h : ofBody line cs = .instruction i) :
    ink i.mnemonic.toList + ink (i.params.map String.toList).flatten =
      ink (withoutRemark (trimStart cs)) := by
  obtain ⟨word, after, hsplit, -, -, -, hm, hp⟩ := ofBody_eq_instruction h
  rw [hsplit, hm, hp, ink_params, ink_append]

theorem ofBody_append_remark_ne {cs : List Char} {line : LineNumber} {i : Instruction}
    (hd : Dangles (trimStart cs)) (hrem : hasRemark true (trimStart cs) = false)
    (hi : ofBody line cs = .instruction i) (c : List Char) :
    ofBody line (cs ++ ' ' :: (remark ++ c)) ≠ .instruction i := by
  intro hi'
  have hne : trimStart cs ≠ [] := by
    intro hnil
    obtain ⟨u, hu, -⟩ := hd
    rw [hnil] at hu
    simp at hu
  have hds : trimStart (cs ++ ' ' :: (remark ++ c)) =
      (trimStart cs ++ [' ']) ++ (remark ++ c) := by
    rw [trimStart_append_of_ne hne, List.append_cons]
  have hlt := ink_withoutRemark_lt (hasRemark_of_dangles hd)
  have hink := (ink_of_ofBody hi).symm.trans (ink_of_ofBody hi')
  rw [hds, withoutRemark_append (hasRemark_of_dangles hd), withoutRemark_of_not hrem] at hink
  rw [← hink, ink_append] at hlt
  exact Nat.lt_irrefl _ hlt

theorem ofChars_append_remark_ne {s : List Char} {i : Instruction} (hd : Dangling s)
    (hrem : hasRemark true (trimStart (afterNumeral s)) = false) (hi : ofChars s = .instruction i)
    (c : List Char) : ofChars (s ++ ' ' :: (remark ++ c)) ≠ .instruction i := by
  have hs : trimStart s ≠ [] := fun hnil => hd.1 (numeral_of_trimStart_nil hnil)
  obtain ⟨hnum, hafter⟩ := numeral_append_blank (d := ' ') rfl hs (remark ++ c)
  rw [ofChars_eq, if_neg (by simpa using hd.1)] at hi
  rw [ofChars_eq, hnum, hafter, if_neg (by simpa using hd.1)]
  split at hi
  · rename_i hlt
    rw [if_pos hlt]
    exact ofBody_append_remark_ne hd.2 hrem hi c
  · cases hi

/-- **Layout does not change a program.**  A text with a carriage return before each of its newlines
is read as the same program, with the same warnings.  A line with a comment after it holds what the
line alone holds, unless the line ends in the word of comments, at the start of the text after the
line number or after a blank; a line without a number is no exception to this.  The exception is
real: if the line alone holds an instruction and has no comment yet, the word is lost from it. -/
theorem layout_irrelevant :
    (∀ source : String,
      Program.ofSource (.ofList (withReturns source.toList)) = Program.ofSource source ∧
      Program.warnings (.ofList (withReturns source.toList)) = Program.warnings source) ∧
    (∀ s c : List Char, ¬ Dangling s → ofChars (s ++ " REM ".toList ++ c) = ofChars s) ∧
    (∀ (s c : List Char) (i : Instruction), Dangling s →
      hasRemark true (trimStart (afterNumeral s)) = false → ofChars s = .instruction i →
      ofChars (s ++ " REM ".toList ++ c) ≠ .instruction i) := by
  have happend (s c : List Char) : s ++ " REM ".toList ++ c = s ++ ' ' :: (remark ++ c) := by
    rw [List.append_assoc]
    rfl
  refine ⟨fun source => ?_, fun s c hs => ?_, fun s c i hd hrem hi => ?_⟩
  · have hall : all (.ofList (withReturns source.toList)) = all source := by
      rw [all, all, String.toList_ofList]
      exact map_linesFrom_withReturns ofChars_append_return [] source.toList
    rw [Program.ofSource, Program.warnings, hall]
    exact ⟨rfl, rfl⟩
  · rw [happend]
    refine ofChars_append (by decide) rfl fun hne line => ?_
    exact ofBody_append_remark (fun hd => hs ⟨hne, hd⟩) line c
  · rw [happend]
    exact ofChars_append_remark_ne hd hrem hi c

/-- A quote that nothing closes and the word of comments after a comma, and the word of comments
after a blank. -/
theorem layout_irrelevant_commented :
    (¬ Dangling "10 PUSH \"a,REM".toList ∧
      ofChars ("10 PUSH \"a,REM".toList ++ " REM ".toList ++ "REM b".toList) =
        .instruction (.ofMnemonic 10 "PUSH" ["\"a", "REM"])) ∧
    (Dangling "10 PUSH a, REM".toList ∧
      ofChars "10 PUSH a, REM".toList =
        .instruction (.ofMnemonic 10 "PUSH" ["a", "REM"]) ∧
      ofChars ("10 PUSH a, REM".toList ++ " REM ".toList ++ "b".toList) ≠
        .instruction (.ofMnemonic 10 "PUSH" ["a", "REM"])) := by
  obtain ⟨-, hsame, hdiffer⟩ := layout_irrelevant
  have hfree : ¬ Dangling "10 PUSH \"a,REM".toList := by
    rintro ⟨-, u, hu, hlast⟩
    have hu : "PUSH \"a,".toList ++ "REM".toList = u ++ "REM".toList := hu
    rw [← List.append_cancel_right hu] at hlast
    exact absurd (hlast ',' rfl) (by decide)
  have hdangling : Dangling "10 PUSH a, REM".toList :=
    ⟨by decide, "PUSH a, ".toList, rfl, fun d hd => by cases hd; decide⟩
  have hread : [ofChars "10 PUSH \"a,REM".toList, ofChars "10 PUSH a, REM".toList] =
      [.instruction (.ofMnemonic 10 "PUSH" ["\"a", "REM"]),
        .instruction (.ofMnemonic 10 "PUSH" ["a", "REM"])] := by decide +kernel
  rw [List.cons.injEq, List.cons.injEq] at hread
  obtain ⟨hquote, hi, -⟩ := hread
  exact ⟨⟨hfree, (hsame _ _ hfree).trans hquote⟩, hdangling, hi, hdiffer _ _ _ hdangling rfl hi⟩

end Stackline.SourceLine
