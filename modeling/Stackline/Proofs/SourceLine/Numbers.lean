import Mathlib.Tactic.Tauto
import Stackline.Proofs.Program
import Stackline.SourceLine

/-!
# The last line with a number counts

A text may give its lines in any order, and may give a number more than once.  `numbered n` picks
the lines that hold an instruction with the number `n`, in their order, and `lastNumbered n` is the
instruction on the last of them.  The program of a text has these instructions and no others, in
ascending order (`ofSource_lastNumbered`), so the order of the text counts only among lines with
the same number.
-/

namespace Stackline

namespace SourceLine

/-- The instruction on a line of text. -/
def read? (cs : List Char) : Option Instruction := (ofChars cs).instruction?

/-- Whether a line of text holds an instruction with a number. -/
def isNumbered (n : LineNumber) (cs : List Char) : Bool := (read? cs).map (·.line) = some n

theorem isNumbered_of_none {cs : List Char} (h : read? cs = none) (n : LineNumber) :
    isNumbered n cs = false := by
  simp [isNumbered, h]

theorem isNumbered_of_some {cs : List Char} {i : Instruction} (h : read? cs = some i)
    (n : LineNumber) : isNumbered n cs = decide (i.line = n) := by
  simp [isNumbered, h]

/-- Those of some lines of text that hold an instruction with a number. -/
def numbered (n : LineNumber) (ls : List (List Char)) : List (List Char) :=
  ls.filter (isNumbered n)

/-- The instruction on the last of some lines of text that holds one with a number. -/
def lastNumbered (n : LineNumber) (ls : List (List Char)) : Option Instruction :=
  (numbered n ls).getLast?.bind read?

theorem lastNumbered_cons_of_not {n : LineNumber} {cs : List Char} (h : isNumbered n cs = false)
    (ls : List (List Char)) : lastNumbered n (cs :: ls) = lastNumbered n ls := by
  simp [lastNumbered, numbered, h]

/-- A line in front counts if no later one has its number. -/
theorem lastNumbered_cons {cs : List Char} {i : Instruction} (h : read? cs = some i)
    (ls : List (List Char)) :
    lastNumbered i.line (cs :: ls) = (lastNumbered i.line ls).or (some i) := by
  have hcs : isNumbered i.line cs = true := by simp [isNumbered_of_some h]
  unfold lastNumbered numbered
  rw [List.filter_cons_of_pos hcs, List.getLast?_cons]
  cases hl : (ls.filter (isNumbered i.line)).getLast? with
  | none => simpa using h
  | some ds =>
    have hds : isNumbered i.line ds = true := (List.mem_filter.mp (List.mem_of_getLast? hl)).2
    cases hr : read? ds with
    | none => simp [isNumbered_of_none hr] at hds
    | some j => simp [hr]

/-- The instruction found has the number that was asked for. -/
theorem line_of_lastNumbered {n : LineNumber} {ls : List (List Char)} {i : Instruction}
    (h : lastNumbered n ls = some i) : i.line = n := by
  obtain ⟨cs, hcs, hi⟩ := Option.bind_eq_some_iff.mp h
  have hn : isNumbered n cs = true := (List.mem_filter.mp (List.mem_of_getLast? hcs)).2
  simpa [isNumbered_of_some hi] using hn

end SourceLine

namespace Program

open SourceLine

/-! ### Arranging instructions -/

/-- An instruction finds a place if its line is not taken. -/
theorem mem_place_iff {i k : Instruction} {js : List Instruction}
    (h : js.Pairwise fun i j => i.line < j.line) :
    k ∈ place i js ↔ k ∈ js ∨ (k = i ∧ ∀ j ∈ js, j.line ≠ i.line) := by
  induction js with
  | nil => simp [place]
  | cons j js ih =>
    obtain ⟨hj, hjs⟩ := List.pairwise_cons.mp h
    rw [place]
    split
    · -- the lines from here on are greater
      rename_i hlt
      have hfree : ∀ l ∈ j :: js, l.line ≠ i.line := by
        intro l hl he
        rcases List.mem_cons.mp hl with rfl | hl
        · exact UInt32.lt_irrefl _ (he ▸ hlt)
        · exact UInt32.lt_irrefl _ (he ▸ UInt32.lt_trans hlt (hj l hl))
      rw [and_iff_left hfree, List.mem_cons, or_comm]
    · split
      · rename_i he
        have htaken : ¬ ∀ l ∈ j :: js, l.line ≠ i.line := fun hne =>
          hne j List.mem_cons_self he.symm
        simp only [htaken, and_false, or_false]
      · rename_i hne
        rw [List.mem_cons, List.mem_cons, ih hjs, List.forall_mem_cons]
        have hji : j.line ≠ i.line := fun he => hne he.symm
        tauto

/-- The arranged instructions of some lines of text are those that count. -/
theorem mem_arrange_iff (ls : List (List Char)) (i : Instruction) :
    i ∈ arrange (ls.filterMap read?) ↔ lastNumbered i.line ls = some i := by
  induction ls generalizing i with
  | nil => simp [arrange, lastNumbered, numbered]
  | cons cs ls ih =>
    cases hr : read? cs with
    | none =>
      rw [List.filterMap_cons_none hr, lastNumbered_cons_of_not (isNumbered_of_none hr _)]
      exact ih i
    | some k =>
      rw [List.filterMap_cons_some hr]
      show i ∈ place k (arrange (ls.filterMap read?)) ↔ _
      rw [mem_place_iff (pairwise_arrange _)]
      -- the line of `k` is free if no later line has its number
      have hfree : (∀ j ∈ arrange (ls.filterMap read?), j.line ≠ k.line) ↔
          lastNumbered k.line ls = none := by
        constructor
        · intro hne
          cases hl : lastNumbered k.line ls with
          | none => rfl
          | some j =>
            have hj := line_of_lastNumbered hl
            exact absurd hj (hne j ((ih j).mpr (hj ▸ hl)))
        · intro hnone j hj he
          have hl := (ih j).mp hj
          rw [he, hnone] at hl
          cases hl
      rw [ih i, hfree]
      by_cases he : k.line = i.line
      · rw [← he, lastNumbered_cons hr]
        cases hl : lastNumbered k.line ls with
        | none => simp [eq_comm]
        | some j => simp
      · have hne : i ≠ k := fun h => he (h ▸ rfl)
        have hcs : isNumbered i.line cs = false := by simp [isNumbered_of_some hr, he]
        rw [lastNumbered_cons_of_not hcs]
        simp [hne]

/-- Ascending lists with the same members are equal. -/
theorem eq_of_mem_iff {is js : List Instruction} (hi : is.Pairwise fun i j => i.line < j.line)
    (hj : js.Pairwise fun i j => i.line < j.line) (h : ∀ i, i ∈ is ↔ i ∈ js) : is = js := by
  have hnodup : ∀ {l : List Instruction}, (l.Pairwise fun i j => i.line < j.line) → l.Nodup := by
    intro l hl
    refine hl.imp ?_
    rintro i j hlt rfl
    exact UInt32.lt_irrefl _ hlt
  have hperm : is.Perm js := (List.perm_ext_iff_of_nodup (hnodup hi) (hnodup hj)).mpr h
  refine hperm.eq_of_pairwise (fun i j _ _ hij hji => ?_) hi hj
  exact absurd (UInt32.lt_trans hij hji) (UInt32.lt_irrefl _)

/-! ### Programs from text -/

theorem mem_ofSource_iff (source : String) (i : Instruction) :
    i ∈ (ofSource source).toList ↔ lastNumbered i.line (Text.lines source.toList) = some i := by
  rw [ofSource, toList_ofInstructions, SourceLine.all, List.filterMap_map]
  exact mem_arrange_iff (Text.lines source.toList) i

/-- **The last line with a number counts.**  The program of a text is the one ascending list of
instructions that has, for each number, the instruction on the last line of the text that holds one
with this number, and nothing else.  So texts in which the lines of each number are the same and in
the same order hold the same program, however the lines of different numbers are mixed. -/
theorem ofSource_lastNumbered (source : String) :
    (∀ is : List Instruction, (ofSource source).toList = is ↔
      (is.Pairwise fun i j => i.line < j.line) ∧
        ∀ i, i ∈ is ↔ lastNumbered i.line (Text.lines source.toList) = some i) ∧
    ∀ other : String,
      (∀ n, numbered n (Text.lines other.toList) = numbered n (Text.lines source.toList)) →
        ofSource other = ofSource source := by
  refine ⟨fun is => ⟨?_, ?_⟩, fun other h => ?_⟩
  · rintro rfl
    exact ⟨(ofSource source).ascending, mem_ofSource_iff source⟩
  · rintro ⟨hasc, hmem⟩
    refine eq_of_mem_iff (ofSource source).ascending hasc fun i => ?_
    rw [hmem i]
    exact mem_ofSource_iff source i
  · have hmem : ∀ i, i ∈ (ofSource other).toList ↔ i ∈ (ofSource source).toList := by
      intro i
      rw [mem_ofSource_iff, mem_ofSource_iff, lastNumbered, lastNumbered, h]
    exact eq_of_toList (eq_of_mem_iff (ofSource other).ascending (ofSource source).ascending hmem)

/-- A line moves in front of two others that share a number, of which the last counts. -/
theorem ofSource_lastNumbered_moved :
    ofSource "10 PUSH 1\n30 PRINT\n30 EXIT\n" = ofSource "30 PRINT\n10 PUSH 1\n30 EXIT\n" ∧
      (ofSource "30 PRINT\n10 PUSH 1\n30 EXIT\n").toList =
        [.ofMnemonic 10 "PUSH" ["1"],
          .ofMnemonic 30 "EXIT" []] := by
  refine ⟨(ofSource_lastNumbered _).2 _ fun n => ?_, by decide +kernel⟩
  have hprint : (read? "30 PRINT".toList).map (·.line) = some 30 := by decide +kernel
  have hpush : (read? "10 PUSH 1".toList).map (·.line) = some 10 := by decide +kernel
  have hexit : (read? "30 EXIT".toList).map (·.line) = some 30 := by decide +kernel
  show numbered n ["10 PUSH 1".toList, "30 PRINT".toList, "30 EXIT".toList] =
    numbered n ["30 PRINT".toList, "10 PUSH 1".toList, "30 EXIT".toList]
  generalize "30 PRINT".toList = print at *
  generalize "10 PUSH 1".toList = push at *
  generalize "30 EXIT".toList = exit at *
  by_cases hn : n = 10
  · simp [numbered, isNumbered, List.filter_cons, hprint, hexit, hn]
  · simp [numbered, isNumbered, List.filter_cons, hpush, Ne.symm hn]

end Program

end Stackline
