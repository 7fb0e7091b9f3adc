import Stackline.Instruction

/-!
# Programs

The instructions of a program in ascending order of their lines, one to a line. Of several
instructions with the same line the last one given counts.
-/

namespace Stackline

/-- Instructions with strictly ascending lines. -/
structure Program where
  instructions : Array Instruction
  ascending : instructions.toList.Pairwise fun i j => i.line < j.line

namespace Program

/-- Put an instruction in its place among ascending ones, unless its line is taken. -/
def place (i : Instruction) : List Instruction → List Instruction
  | [] => [i]
  | j :: js =>
    if i.line < j.line then i :: j :: js
    else if i.line = j.line then j :: js
    else j :: place i js

theorem mem_place {i k : Instruction} {js : List Instruction} (h : k ∈ place i js) :
    k = i ∨ k ∈ js := by
  induction js with
  | nil => simpa [place] using h
  | cons j js ih =>
    simp only [place] at h
    split at h
    · simpa using h
    · split at h
      · exact .inr h
      · rcases List.mem_cons.mp h with rfl | h
        · simp
        · rcases ih h with h | h
          · exact .inl h
          · exact .inr (List.mem_cons_of_mem _ h)

/-- Placing an instruction keeps the order. -/
theorem pairwise_place (i : Instruction) {js : List Instruction}
    (h : js.Pairwise fun i j => i.line < j.line) :
    (place i js).Pairwise fun i j => i.line < j.line := by
  induction js with
  | nil => simp [place]
  | cons j js ih =>
    obtain ⟨hj, hjs⟩ := List.pairwise_cons.mp h
    simp only [place]
    split
    · rename_i hlt
      refine List.pairwise_cons.mpr ⟨fun k hk => ?_, h⟩
      rcases List.mem_cons.mp hk with rfl | hk
      · exact hlt
      · exact UInt32.lt_trans hlt (hj k hk)
    · split
      · exact h
      · rename_i hnlt hne
        refine List.pairwise_cons.mpr ⟨fun k hk => ?_, ih hjs⟩
        rcases mem_place hk with rfl | hk
        · exact UInt32.lt_of_le_of_ne (UInt32.not_lt.mp hnlt) fun he => hne he.symm
        · exact hj k hk

/-- The instructions in order, the last one given for each line. -/
def arrange (is : List Instruction) : List Instruction := is.foldr place []

theorem pairwise_arrange (is : List Instruction) :
    (arrange is).Pairwise fun i j => i.line < j.line := by
  induction is with
  | nil => exact List.Pairwise.nil
  | cons i is ih => exact pairwise_place i ih

/-- The program of some instructions in any order. -/
def ofInstructions (is : List Instruction) : Program :=
  ⟨(arrange is).toArray, by simpa using pairwise_arrange is⟩

/-- The program without instructions. -/
def empty : Program := ofInstructions []

instance : Inhabited Program := ⟨empty⟩

/-- The number of instructions. -/
def size (p : Program) : Nat := p.instructions.size

/-- The instruction at a position. -/
def get? (p : Program) (position : Nat) : Option Instruction := p.instructions[position]?

/-- The instructions in order. -/
def toList (p : Program) : List Instruction := p.instructions.toList

/-- The lines in order. -/
def lines (p : Program) : List LineNumber := p.toList.map (·.line)

/-- The program as text. -/
def display (p : Program) : String := String.join (p.toList.map fun i => i.display ++ "\n")

end Program

end Stackline
