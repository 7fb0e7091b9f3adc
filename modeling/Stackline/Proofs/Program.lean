import Stackline.Program.Basic

/-!
# The order of programs

A program is an ascending list of lines. `before` counts the instructions before a line; the
positions that `Reaches` the line are those behind them. `known` leaves out the instructions that
have no operation, and `rank` says to which of the others a position then corresponds.
-/

namespace Stackline.Program

/-! ### Ascending lists -/

theorem arrange_eq_self {is : List Instruction} (h : is.Pairwise fun i j => i.line < j.line) :
    arrange is = is := by
  induction is with
  | nil => rfl
  | cons i is ih =>
    obtain ⟨hi, his⟩ := List.pairwise_cons.mp h
    rw [show arrange (i :: is) = place i (arrange is) from rfl, ih his]
    cases is with
    | nil => rfl
    | cons j js => exact if_pos (hi j List.mem_cons_self)

theorem mem_of_mem_arrange {is : List Instruction} {i : Instruction} (h : i ∈ arrange is) :
    i ∈ is := by
  induction is with
  | nil => cases h
  | cons j is ih =>
    rcases mem_place h with rfl | h
    · exact List.mem_cons_self
    · exact List.mem_cons_of_mem _ (ih h)

theorem mem_lines_place {i : Instruction} {js : List Instruction} {n : LineNumber} :
    n ∈ (place i js).map (·.line) ↔ n = i.line ∨ n ∈ js.map (·.line) := by
  induction js with
  | nil => simp [place]
  | cons j js ih =>
    rw [place]
    split
    · rw [List.map_cons, List.mem_cons]
    · split
      · rename_i he
        simp [he]
      · rw [List.map_cons, List.mem_cons, ih, List.map_cons, List.mem_cons]
        exact or_left_comm

/-- Arranging instructions loses none of their lines. -/
theorem mem_lines_arrange {is : List Instruction} {n : LineNumber} :
    n ∈ (arrange is).map (·.line) ↔ n ∈ is.map (·.line) := by
  induction is with
  | nil => rfl
  | cons i is ih =>
    rw [show arrange (i :: is) = place i (arrange is) from rfl, mem_lines_place, ih, List.map_cons,
      List.mem_cons]

theorem eq_of_line {is : List Instruction} (h : is.Pairwise fun i j => i.line < j.line)
    {i j : Instruction} (hi : i ∈ is) (hj : j ∈ is) (he : i.line = j.line) : i = j := by
  induction is with
  | nil => cases hi
  | cons k is ih =>
    obtain ⟨hk, his⟩ := List.pairwise_cons.mp h
    rcases List.mem_cons.mp hi with rfl | hi' <;> rcases List.mem_cons.mp hj with rfl | hj'
    · rfl
    · exact absurd (he ▸ hk j hj') (UInt32.lt_irrefl _)
    · exact absurd (he ▸ hk i hi') (UInt32.lt_irrefl _)
    · exact ih his hi' hj'

theorem toList_ofInstructions (is : List Instruction) : (ofInstructions is).toList = arrange is := by
  simp [toList, ofInstructions]

theorem eq_of_toList {p q : Program} (h : p.toList = q.toList) : p = q := by
  obtain ⟨is, _⟩ := p
  obtain ⟨js, _⟩ := q
  obtain rfl : is = js := Array.toList_inj.mp h
  rfl

theorem get?_eq (p : Program) (k : Nat) : p.get? k = p.toList[k]? := by
  simp [get?, toList]

theorem size_eq (p : Program) : p.size = p.toList.length := by
  simp [size, toList]

theorem mem_of_get? {p : Program} {k : Nat} {i : Instruction} (h : p.get? k = some i) :
    i ∈ p.toList := by
  rw [get?_eq] at h
  exact List.mem_of_getElem? h

theorem get?_lt {p : Program} {k : Nat} (h : k < p.size) : ∃ i, p.get? k = some i :=
  ⟨_, Array.getElem?_eq_getElem h⟩

theorem lt_of_get? {p : Program} {k : Nat} {i : Instruction} (h : p.get? k = some i) :
    k < p.size := by
  rw [get?_eq] at h
  rw [size_eq]
  exact (List.getElem?_eq_some_iff.mp h).1

/-! ### Lines -/

/-- The number of instructions before a line. -/
def before (p : Program) (target : Int) : Nat :=
  p.toList.countP fun i => (i.line.toNat : Int) < target

theorem before_le_size (p : Program) (target : Int) : p.before target ≤ p.size := by
  rw [size_eq]
  exact List.countP_le_length

theorem exists_split_of_pairwise {is : List Instruction}
    (h : is.Pairwise fun i j => i.line < j.line) (target : Int) : ∃ u v, is = u ++ v ∧
      (∀ i ∈ u, (i.line.toNat : Int) < target) ∧ ∀ i ∈ v, target ≤ i.line.toNat := by
  induction is with
  | nil => exact ⟨[], [], rfl, by simp, by simp⟩
  | cons i is ih =>
    obtain ⟨hi, his⟩ := List.pairwise_cons.mp h
    by_cases hlt : (i.line.toNat : Int) < target
    · obtain ⟨u, v, rfl, hu, hv⟩ := ih his
      exact ⟨i :: u, v, rfl, List.forall_mem_cons.mpr ⟨hlt, hu⟩, hv⟩
    · refine ⟨[], i :: is, rfl, by simp, List.forall_mem_cons.mpr ⟨by omega, fun j hj => ?_⟩⟩
      have := UInt32.lt_iff_toNat_lt.mp (hi j hj)
      omega

theorem countP_split {u v : List Instruction} {target : Int}
    (hu : ∀ i ∈ u, (i.line.toNat : Int) < target) (hv : ∀ i ∈ v, target ≤ i.line.toNat) :
    (u ++ v).countP (fun i => decide ((i.line.toNat : Int) < target)) = u.length := by
  rw [List.countP_append, List.countP_eq_length.mpr (by simpa using hu),
    List.countP_eq_zero.mpr (by simpa using hv), Nat.add_zero]

/-- The instructions before a line come first. -/
theorem exists_split (p : Program) (target : Int) : ∃ u v, p.toList = u ++ v ∧
    u.length = p.before target ∧ (∀ i ∈ u, (i.line.toNat : Int) < target) ∧
    ∀ i ∈ v, target ≤ i.line.toNat := by
  obtain ⟨u, v, hp, hu, hv⟩ := exists_split_of_pairwise p.ascending target
  refine ⟨u, v, hp, ?_, hu, hv⟩
  rw [before, toList, hp, countP_split hu hv]

theorem lt_before_iff {p : Program} {k : Nat} {i : Instruction} (h : p.get? k = some i)
    (target : Int) : (i.line.toNat : Int) < target ↔ k < p.before target := by
  obtain ⟨u, v, hp, hlen, hu, hv⟩ := p.exists_split target
  rw [get?_eq, hp, List.getElem?_append] at h
  split at h
  · rename_i hk
    exact ⟨fun _ => hlen ▸ hk, fun _ => hu i (List.mem_of_getElem? h)⟩
  · rename_i hk
    have := hv i (List.mem_of_getElem? h)
    omega

theorem line_lt_line {p : Program} {k l : Nat} {i j : Instruction} (hi : p.get? k = some i)
    (hj : p.get? l = some j) (h : k < l) : i.line.toNat < j.line.toNat := by
  rw [get?_eq] at hi hj
  obtain ⟨hk, rfl⟩ := List.getElem?_eq_some_iff.mp hi
  obtain ⟨hl, rfl⟩ := List.getElem?_eq_some_iff.mp hj
  exact UInt32.lt_iff_toNat_lt.mp (List.pairwise_iff_getElem.mp p.ascending k l hk hl h)

/-- The instructions before a line that exists are those in front of it. -/
theorem before_line {p : Program} {k : Nat} {i : Instruction} (h : p.get? k = some i) :
    p.before i.line.toNat = k := by
  have hle : ¬ k < p.before i.line.toNat := fun hlt =>
    Int.lt_irrefl _ ((lt_before_iff h _).mpr hlt)
  have hge : ¬ p.before i.line.toNat < k := by
    -- the instruction there would be in front of `i` without being before its line
    intro hlt
    have hk := lt_of_get? h
    obtain ⟨j, hj⟩ : ∃ j, p.get? (p.before i.line.toNat) = some j := get?_lt (by omega)
    have hline := line_lt_line hj h hlt
    have := (lt_before_iff hj i.line.toNat).mp (by omega)
    omega
  omega

/-- The line after that of an instruction is the place behind it. -/
theorem before_line_succ {p : Program} {k : Nat} {i : Instruction} (h : p.get? k = some i) :
    p.before (i.line.toNat + 1) = k + 1 := by
  have hk : k < p.before (i.line.toNat + 1) := (lt_before_iff h _).mp (by omega)
  have hle := p.before_le_size (i.line.toNat + 1)
  have hnot : ¬ k + 1 < p.before (i.line.toNat + 1) := by
    -- an instruction at `k + 1` would have a line between that of `i` and the next number
    intro hlt
    obtain ⟨j, hj⟩ : ∃ j, p.get? (k + 1) = some j := get?_lt (by omega)
    have hline : (j.line.toNat : Int) < i.line.toNat + 1 := (lt_before_iff hj _).mpr hlt
    have := line_lt_line h hj (Nat.lt_succ_self k)
    omega
  omega

/-- Where there is no line, the same instructions are before the next number. -/
theorem before_succ {p : Program} {target : Int}
    (h : ∀ i ∈ p.toList, (i.line.toNat : Int) ≠ target) : p.before (target + 1) = p.before target := by
  refine List.countP_congr fun i hi => ?_
  have := h i hi
  simp only [decide_eq_true_eq]
  omega

/-- The instruction at a position is on a line or after it. -/
def Reaches (p : Program) (target : Int) (k : Nat) : Prop :=
  ∃ i, p.get? k = some i ∧ target ≤ i.line.toNat

/-- The positions that reach a line are those behind the instructions before it. -/
theorem reaches_iff {p : Program} {target : Int} {k : Nat} :
    p.Reaches target k ↔ p.before target ≤ k ∧ k < p.size := by
  constructor
  · rintro ⟨i, hi, hle⟩
    have := lt_before_iff hi target
    exact ⟨by omega, lt_of_get? hi⟩
  · rintro ⟨hle, hlt⟩
    obtain ⟨i, hi⟩ := get?_lt hlt
    have := lt_before_iff hi target
    exact ⟨i, hi, by omega⟩

/-! ### Instructions with an operation -/

/-- The program without the instructions that have no operation. -/
def known (p : Program) : Program :=
  ⟨p.instructions.filter (·.opcode.isSome), by
    rw [Array.toList_filter]
    exact p.ascending.filter _⟩

/-- How many instructions in front of a position have an operation. -/
def rank (p : Program) (k : Nat) : Nat := (p.toList.take k).countP (·.opcode.isSome)

theorem toList_known (p : Program) : p.known.toList = p.toList.filter (·.opcode.isSome) := by
  simp [toList, known]

theorem rank_of_size_le {p : Program} {k : Nat} (h : p.size ≤ k) : p.rank k = p.known.size := by
  rw [size_eq] at h
  rw [rank, List.take_of_length_le h, size_eq, toList_known, List.countP_eq_length_filter]

theorem rank_succ {p : Program} {k : Nat} {i : Instruction} (h : p.get? k = some i) :
    p.rank (k + 1) = p.rank k + if i.opcode.isSome then 1 else 0 := by
  rw [get?_eq] at h
  rw [rank, List.take_add_one, h, List.countP_append, ← rank]
  simp [List.countP_cons]

/-- An instruction with an operation stands at its rank among those. -/
theorem get?_known {p : Program} {k : Nat} {i : Instruction} (h : p.get? k = some i)
    (hi : i.opcode.isSome = true) : p.known.get? (p.rank k) = some i := by
  rw [get?_eq] at h ⊢
  obtain ⟨hk, rfl⟩ := List.getElem?_eq_some_iff.mp h
  have hsplit : p.toList = p.toList.take k ++ p.toList[k] :: p.toList.drop (k + 1) := by
    rw [← List.drop_eq_getElem_cons hk, List.take_append_drop]
  have hfilter := congrArg (List.filter (·.opcode.isSome)) hsplit
  rw [List.filter_append, List.filter_cons, if_pos hi] at hfilter
  rw [toList_known, hfilter, rank, List.countP_eq_length_filter,
    List.getElem?_append_right (Nat.le_refl _), Nat.sub_self]
  rfl

/-- Leaving instructions out keeps the others in front of a line. -/
theorem before_known (p : Program) (target : Int) :
    p.known.before target = p.rank (p.before target) := by
  obtain ⟨u, v, hp, hlen, hu, hv⟩ := p.exists_split target
  have htake : p.toList.take (p.before target) = u := by
    rw [hp, ← hlen, List.take_left]
  rw [rank, htake, List.countP_eq_length_filter, before, toList_known, hp, List.filter_append]
  refine countP_split (fun i hi => ?_) fun i hi => ?_
  · exact hu i (List.mem_filter.mp hi).1
  · exact hv i (List.mem_filter.mp hi).1

end Stackline.Program
