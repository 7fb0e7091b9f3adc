import Stackline.Program.Index
import Stackline.Proofs.Program

/-!
# Where jumps go

The lines of a program ascend, so the index holds each of them once, and those up to a target come
first.  Whichever of the two ways an index takes, the position it finds is the number of instructions
before the target (`resolve_eq`), which is the first position that `Reaches` it
(`resolve_ofInstructions`).
-/

namespace Stackline.LineIndex

open Program

variable {p : Program} {target : Int} {k : Nat} {n : LineNumber}

/-! ### The lines of an index -/

theorem size_lines (p : Program) : (ofProgram p).lines.size = p.size := by
  simp [ofProgram, Program.lines, size_eq]

theorem getElem?_lines (p : Program) (k : Nat) :
    (ofProgram p).lines[k]? = (p.get? k).map (·.line) := by
  simp [ofProgram, Program.lines, get?_eq]

/-- The position of a line is where the line is. -/
theorem positions_eq_some_iff : (ofProgram p).positions[n]? = some k ↔ p.lines[k]? = some n := by
  have hne : p.lines.zipIdx.Pairwise fun a b => ¬ compare a.1 b.1 = .eq := by
    have hlines : p.lines.Pairwise (· ≠ ·) :=
      List.pairwise_map.mpr (p.ascending.imp UInt32.ne_of_lt)
    rw [← List.zipIdx_map_fst 0 p.lines, List.pairwise_map] at hlines
    exact hlines.imp fun h => mt Std.LawfulEqCmp.eq_of_compare h
  rw [← List.mk_mem_zipIdx_iff_getElem?]
  constructor
  · intro h
    by_cases hmem : n ∈ p.lines.zipIdx.map Prod.fst
    · obtain ⟨⟨m, j⟩, hm, rfl⟩ := List.mem_map.mp hmem
      rw [ofProgram, Std.TreeMap.getElem?_ofList_of_mem Std.ReflCmp.compare_self hne hm] at h
      exact Option.some.inj h ▸ hm
    · rw [ofProgram, Std.TreeMap.getElem?_ofList_of_contains_eq_false (by simpa using hmem)] at h
      cases h
  · exact fun h => Std.TreeMap.getElem?_ofList_of_mem Std.ReflCmp.compare_self hne h

/-! ### The two ways -/

/-- What is looked up is found exactly if it is a line. -/
theorem positionOf?_eq_some_iff : (ofProgram p).positionOf? target = some k ↔
    ∃ i, p.get? k = some i ∧ (i.line.toNat : Int) = target := by
  have hlines : ∀ m, p.lines[k]? = some m ↔ ∃ i, p.get? k = some i ∧ i.line = m := by
    simp [Program.lines, get?_eq]
  unfold positionOf?
  constructor
  · intro h
    split at h
    · rename_i hrange
      obtain ⟨i, hi, hline⟩ := (hlines _).mp (positions_eq_some_iff.mp h)
      refine ⟨i, hi, ?_⟩
      have hlt : target.toNat < UInt32.size := by omega
      rw [hline, UInt32.toNat_ofNat_of_lt' hlt]
      omega
    · cases h
  · rintro ⟨i, hi, rfl⟩
    have hlt := i.line.toNat_lt_size
    rw [if_pos ⟨by omega, by omega⟩, positions_eq_some_iff, hlines]
    exact ⟨i, hi, by simp⟩

/-- Halving finds the number of lines that pass a test, if these come first. -/
theorem partitionPoint_eq {x : LineIndex} {test : LineNumber → Bool} {c lo hi : Nat}
    (htest : ∀ k n, x.lines[k]? = some n → (test n = true ↔ k < c)) (hlo : lo ≤ c) (hhi : c ≤ hi)
    (hsize : hi ≤ x.lines.size) : x.partitionPoint test lo hi = c := by
  fun_induction x.partitionPoint test lo hi with
  | case1 lo hi hlt mid n hn hpass ih =>
    have := (htest mid n hn).mp hpass
    exact ih (by omega) hhi hsize
  | case2 lo hi hlt mid n hn hfail ih =>
    have := mt (htest mid n hn).mpr hfail
    exact ih hlo (by omega) (by omega)
  | case3 lo hi hlt mid hnone =>
    rw [Array.getElem?_eq_none_iff] at hnone
    omega
  | case4 lo hi hge => omega

/-- The search goes past the lines up to its target. -/
theorem following?_eq (p : Program) (target : Int) : (ofProgram p).following? target =
    if p.before (target + 1) < p.size then some (p.before (target + 1)) else none := by
  have hle := p.before_le_size (target + 1)
  have hpoint : (ofProgram p).partitionPoint (fun n => n.toNat ≤ target) 0
      (ofProgram p).lines.size = p.before (target + 1) := by
    refine partitionPoint_eq (fun k n hn => ?_) (Nat.zero_le _) ?_ (Nat.le_refl _)
    · rw [getElem?_lines, Option.map_eq_some_iff] at hn
      obtain ⟨i, hi, rfl⟩ := hn
      rw [← lt_before_iff hi, decide_eq_true_eq, Int.lt_add_one_iff]
    · rwa [size_lines]
  rw [following?, hpoint, size_lines]

/-! ### Jumps -/

/-- A jump to a line goes past the instructions before it, if it does not leave the program. -/
theorem resolve_eq (p : Program) (target : Int) : (ofProgram p).resolve target =
    if p.before target < p.size then some (p.before target) else none := by
  unfold resolve
  cases hk : (ofProgram p).positionOf? target with
  | some k =>
    obtain ⟨i, hi, rfl⟩ := positionOf?_eq_some_iff.mp hk
    rw [before_line hi, if_pos (lt_of_get? hi)]
  | none =>
    have hgap : ∀ i ∈ p.toList, (i.line.toNat : Int) ≠ target := by
      intro i hi hline
      obtain ⟨k, hk'⟩ := List.mem_iff_getElem?.mp hi
      rw [← get?_eq] at hk'
      have hfound := positionOf?_eq_some_iff.mpr ⟨i, hk', hline⟩
      rw [hk] at hfound
      cases hfound
    rw [following?_eq, before_succ hgap]

theorem resolve_lt (h : (ofProgram p).resolve target = some k) : k < p.size := by
  rw [resolve_eq] at h
  split at h
  · cases h
    assumption
  · cases h

/-- A jump goes to the first position that reaches its line. -/
theorem resolve_eq_some_iff : (ofProgram p).resolve target = some k ↔
    p.Reaches target k ∧ ∀ j, p.Reaches target j → k ≤ j := by
  simp only [resolve_eq, reaches_iff]
  constructor
  · intro h
    split at h
    · cases h
      exact ⟨⟨Nat.le_refl _, by assumption⟩, fun j hj => hj.1⟩
    · cases h
  · rintro ⟨⟨hle, hlt⟩, hleast⟩
    have hsize : p.before target < p.size := Nat.lt_of_le_of_lt hle hlt
    rw [if_pos hsize, Nat.le_antisymm hle (hleast _ ⟨Nat.le_refl _, hsize⟩)]

/-- A jump leaves the program if all lines are before its target. -/
theorem resolve_eq_none_iff : (ofProgram p).resolve target = none ↔
    ∀ n ∈ p.lines, (n.toNat : Int) < target := by
  have hle := p.before_le_size target
  rw [resolve_eq, Program.lines, List.forall_mem_map]
  constructor
  · intro h i hi
    split at h
    · cases h
    · obtain ⟨k, hk⟩ := List.mem_iff_getElem?.mp hi
      rw [← get?_eq] at hk
      have := lt_of_get? hk
      exact (lt_before_iff hk target).mpr (by omega)
  · intro h
    refine if_neg fun hlt => ?_
    obtain ⟨i, hi⟩ := get?_lt hlt
    have := (lt_before_iff hi target).mp (h i (mem_of_get? hi))
    omega

/-- **Where a jump goes.**  Let a program be made of instructions in any order, of which several may
have the same line.  Its index resolves a target to a position exactly if this is the first one whose
line is not before the target.  It resolves the target to none exactly if all lines of the program,
which are those of the instructions given, are before the target. -/
theorem resolve_ofInstructions (is : List Instruction) (target : Int) :
    (∀ k, (ofProgram (ofInstructions is)).resolve target = some k ↔
      (ofInstructions is).Reaches target k ∧ ∀ j, (ofInstructions is).Reaches target j → k ≤ j) ∧
    ((ofProgram (ofInstructions is)).resolve target = none ↔
      ∀ n ∈ (ofInstructions is).lines, (n.toNat : Int) < target) ∧
    ∀ n, n ∈ (ofInstructions is).lines ↔ ∃ i ∈ is, i.line = n := by
  refine ⟨fun k => resolve_eq_some_iff, resolve_eq_none_iff, fun n => ?_⟩
  rw [Program.lines, toList_ofInstructions, mem_lines_arrange, List.mem_map]

end Stackline.LineIndex
