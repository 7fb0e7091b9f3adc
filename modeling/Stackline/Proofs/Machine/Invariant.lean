import Stackline.Proofs.Machine.Frame

/-!
# Well-formed machines

`WellFormed` is what holds of a machine between two steps: the stacks are within their bounds, the
pointer is within the program, every line to return to is that of a `GOSUB` of the program, and
there is at most one fault, which has stopped the machine.  In the middle of a step `Underway`
holds; an instruction and the calls of a host keep it (`Kept.underway`, `Spared.underway`), and
the end of the step leads back to `WellFormed` (`conclude_wellFormed`).
-/

namespace Stackline.Machine

variable {α β : Type} {o : Opcode} {m m₁ m₂ m₃ : Machine}

/-- Every line to return to is that of a `GOSUB` of the program. -/
def CallsFromGosub (m : Machine) : Prop :=
  ∀ l ∈ m.calls.entries, ∃ i ∈ m.program.toList, i.line = l ∧ i.opcode = some .gosub

/-- What holds of a machine between two steps. -/
structure WellFormed (m : Machine) : Prop where
  bounded : m.Bounded
  pc_le : m.pc ≤ m.program.size
  calls : m.CallsFromGosub
  faults : m.faults.length ≤ 1
  killed : m.faults ≠ [] → m.killed = true

/-- The pointer may be moved on: there is an instruction to move past, or it will not be moved. -/
def Ready (m : Machine) : Prop := m.pc < m.program.size ∨ m.branched = true ∨ m.killed = true

/-- What holds of a machine in the middle of a step. -/
structure Underway (m : Machine) : Prop where
  bounded : m.Bounded
  pc_le : m.pc ≤ m.program.size
  ready : m.Ready
  calls : m.CallsFromGosub
  faults : m.faults = []

theorem start_wellFormed (p : Program) (source : Source) (sink : Sink) :
    (start p source sink).WellFormed where
  bounded := ⟨Nat.zero_le _, Nat.zero_le _, Nat.zero_le _⟩
  pc_le := Nat.zero_le _
  calls l hl := by cases hl
  faults := Nat.zero_le _
  killed h := absurd rfl h

/-! ### What a host leaves alone -/

/-- What a host leaves alone that does not drive the machine. -/
structure Spared (m₁ m₂ : Machine) : Prop where
  program : m₂.program = m₁.program
  faults : m₂.faults = m₁.faults
  calls : ∀ l ∈ m₂.calls.entries, l ∈ m₁.calls.entries
  killed : m₁.killed = true → m₂.killed = true
  bounded : m₁.Bounded → m₂.Bounded
  pc_le : m₁.pc ≤ m₁.program.size → m₂.pc ≤ m₂.program.size
  ready : m₁.Ready → m₂.Ready

theorem Spared.refl (m : Machine) : Spared m m := ⟨rfl, rfl, fun _ => id, id, id, id, id⟩

theorem Spared.trans (h : Spared m₁ m₂) (h' : Spared m₂ m₃) : Spared m₁ m₃ where
  program := h'.program.trans h.program
  faults := h'.faults.trans h.faults
  calls l hl := h.calls l (h'.calls l hl)
  killed hk := h'.killed (h.killed hk)
  bounded hb := h'.bounded (h.bounded hb)
  pc_le hpc := h'.pc_le (h.pc_le hpc)
  ready hr := h'.ready (h.ready hr)

/-- An operation other than `GOSUB` spares what a host does. -/
theorem Kept.spared (h : Kept o m₁ m₂) (ho : o ≠ .gosub) : Spared m₁ m₂ where
  program := h.program
  faults := h.faults
  calls l hl := by
    rcases h.calls l hl with hl | ⟨ho', -⟩
    · exact hl
    · exact absurd ho' ho
  killed := h.killed
  bounded := h.bounded
  pc_le hpc := by
    rcases h.pointer with ⟨hpc', -⟩ | ⟨-, hle⟩
    · rw [hpc', h.program]; exact hpc
    · rw [h.program]; exact hle
  ready hr := by
    unfold Ready at hr ⊢
    rcases h.pointer with ⟨hpc, hbr, hk⟩ | ⟨hset, -⟩
    · rw [hpc, hbr, hk, h.program]; exact hr
    · exact .inr hset

theorem Spared.note (m : Machine) (e : Event) : Spared m (m.note e) :=
  (Kept.note .pop m e).spared (by decide)

theorem spared_kill (m : Machine) : Spared m m.kill := (kept_kill (o := .pop) m).spared (by decide)

/-- A jump that a host makes goes to an instruction, or to the end and settles there. -/
theorem spared_jumpToLine (m : Machine) (target : Int) (settled : Bool) :
    Spared m (m.jumpToLine target settled) := by
  unfold jumpToLine
  cases hp : m.index.resolve target with
  | some k =>
    have hk : k < m.program.size := LineIndex.resolve_lt (m.index_eq ▸ hp)
    exact ⟨rfl, rfl, fun _ => id, id, fun hb => ⟨hb.operands, hb.registers, hb.calls⟩,
      fun _ => Nat.le_of_lt hk, fun _ => .inl hk⟩
  | none =>
    exact ⟨rfl, rfl, fun _ => id, id, fun hb => ⟨hb.operands, hb.registers, hb.calls⟩,
      fun _ => Nat.le_refl _, fun _ => .inr (.inl rfl)⟩

theorem spared_bind {act : Act α} {f : α → Act β} (ha : ∀ m, Spared m (endState (act m)))
    (hf : ∀ a m, Spared m (endState (f a m))) (m : Machine) :
    Spared m (endState ((act >>= f) m)) :=
  endState_bind (ha m) fun a m₁ h₁ => h₁.trans (hf a m₁)

theorem Composed.spared {act : Act α} (h : Composed .exit act) (m : Machine) :
    Spared m (endState (act m)) :=
  (h.kept m).spared (by decide)

theorem Spared.wellFormed (h : Spared m₁ m₂) (hw : m₁.WellFormed) : m₂.WellFormed where
  bounded := h.bounded hw.bounded
  pc_le := h.pc_le hw.pc_le
  calls l hl := by rw [h.program]; exact hw.calls l (h.calls l hl)
  faults := by rw [h.faults]; exact hw.faults
  killed hf := by rw [h.faults] at hf; exact h.killed (hw.killed hf)

theorem Spared.underway (h : Spared m₁ m₂) (hu : m₁.Underway) : m₂.Underway where
  bounded := h.bounded hu.bounded
  pc_le := h.pc_le hu.pc_le
  ready := h.ready hu.ready
  calls l hl := by rw [h.program]; exact hu.calls l (h.calls l hl)
  faults := h.faults.trans hu.faults

/-! ### Steps -/

theorem begin_underway {i : Instruction} (hw : m.WellFormed) (hi : m.fetch? = some i) :
    (m.begin i).Underway := by
  obtain ⟨hk, hpc⟩ := isRunning_iff.mp (fetch?_eq_some_iff.mp hi).1
  refine ⟨⟨hw.bounded.operands, hw.bounded.registers, hw.bounded.calls⟩, hw.pc_le, .inl hpc,
    hw.calls, ?_⟩
  by_cases hf : m.faults = []
  · exact hf
  · rw [hw.killed hf] at hk; cases hk

/-- The built-in operation of an instruction of the program. -/
theorem Kept.underway {i : Instruction} (h : Kept o m₁ m₂) (hcur : m₁.current = some i)
    (hmem : i ∈ m₁.program.toList) (ho : i.opcode = some o) (hu : m₁.Underway) :
    m₂.Underway where
  bounded := h.bounded hu.bounded
  pc_le := by
    rcases h.pointer with ⟨hpc, -⟩ | ⟨-, hle⟩
    · rw [hpc, h.program]; exact hu.pc_le
    · rw [h.program]; exact hle
  ready := by
    have hr := hu.ready
    unfold Ready at hr ⊢
    rcases h.pointer with ⟨hpc, hbr, hk⟩ | ⟨hset, -⟩
    · rw [hpc, hbr, hk, h.program]; exact hr
    · exact .inr hset
  calls l hl := by
    rw [h.program]
    rcases h.calls l hl with hl | ⟨hgosub, j, hj, hline⟩
    · exact hu.calls l hl
    · -- the line just remembered is that of the instruction under way
      rw [hcur, Option.some.injEq] at hj
      subst hj
      exact ⟨i, hmem, hline, by rw [ho, hgosub]⟩
  faults := h.faults.trans hu.faults

theorem advance_wellFormed (hu : m.Underway) : m.advance.WellFormed := by
  unfold advance
  split
  · exact ⟨hu.bounded, hu.pc_le, hu.calls, by rw [hu.faults]; exact Nat.zero_le _,
      fun hf => absurd hu.faults hf⟩
  · next hstay =>
    rw [Bool.or_eq_true, not_or] at hstay
    have hpc : m.pc < m.program.size := by
      rcases hu.ready with h | h | h
      · exact h
      · exact absurd h hstay.1
      · exact absurd h hstay.2
    exact ⟨⟨hu.bounded.operands, hu.bounded.registers, hu.bounded.calls⟩, hpc, hu.calls,
      by rw [hu.faults]; exact Nat.zero_le _, fun hf => absurd hu.faults hf⟩

theorem kill_wellFormed (hu : m.Underway) : m.kill.WellFormed :=
  ⟨⟨hu.bounded.operands, hu.bounded.registers, hu.bounded.calls⟩, Nat.le_refl _, hu.calls,
    by show m.faults.length ≤ 1; rw [hu.faults]; exact Nat.zero_le _, fun _ => rfl⟩

/-- However an instruction ended, the end of the step leaves the machine well formed. -/
theorem conclude_wellFormed {i : Instruction} {r : EStateM.Result Error Machine Unit}
    (hu : (endState r).Underway) : (endState (conclude i r)).WellFormed := by
  have h := concluded i r
  generalize conclude i r = r' at h ⊢
  cases h with
  | moved m => exact advance_wellFormed hu
  | reported m _ => exact kill_wellFormed hu
  | faulted m log _ =>
    have hw := kill_wellFormed hu
    have hf : m.faults = [] := hu.faults
    refine ⟨⟨hw.bounded.operands, hw.bounded.registers, hw.bounded.calls⟩, Nat.le_refl _, hw.calls,
      ?_, fun _ => rfl⟩
    show (m.faults ++ _).length ≤ 1
    rw [hf]
    exact Nat.le_refl 1

/-- The end of a step keeps the program, and a machine that is stopped. -/
theorem conclude_keeps (i : Instruction) (r : EStateM.Result Error Machine Unit) :
    (endState (conclude i r)).program = (endState r).program ∧
      ((endState r).killed = true → (endState (conclude i r)).killed = true) := by
  have h := concluded i r
  generalize conclude i r = r' at h ⊢
  cases h with
  | moved m =>
    show m.advance.program = m.program ∧ (m.killed = true → m.advance.killed = true)
    unfold advance
    split <;> exact ⟨rfl, id⟩
  | reported m _ => exact ⟨rfl, fun _ => rfl⟩
  | faulted m log _ => exact ⟨rfl, fun _ => rfl⟩

/-- What a built-in instruction leaves for the end of its step. -/
theorem executeInstruction_underway {i : Instruction} (hw : m.WellFormed)
    (hi : m.fetch? = some i) :
    (endState (executeInstruction i (m.begin i))).Underway ∧
      (endState (executeInstruction i (m.begin i))).program = m.program ∧
      (m.killed = true → (endState (executeInstruction i (m.begin i))).killed = true) := by
  have hu := begin_underway hw hi
  cases ho : i.opcode with
  | none =>
    -- an instruction outside the instruction set is only noted
    have hspared : Spared (m.begin i) (endState (executeInstruction i (m.begin i))) := by
      unfold executeInstruction
      rw [ho]
      exact .note _ _
    exact ⟨hspared.underway hu, hspared.program, hspared.killed⟩
  | some o =>
    rw [executeInstruction_of_some ho]
    have hkept := kept_execute o (m.begin i)
    have hmem := Program.mem_of_get? (fetch?_eq_some_iff.mp hi).2
    exact ⟨hkept.underway rfl hmem ho hu, hkept.program, hkept.killed⟩

/-- A step keeps a machine well formed, and its program. -/
theorem wellFormed_step (hw : m.WellFormed) :
    (endState (step m)).WellFormed ∧ (endState (step m)).program = m.program := by
  cases hm : m.isRunning with
  | false =>
    rw [step_of_stopped hm]
    exact ⟨hw, rfl⟩
  | true =>
    obtain ⟨i, hi⟩ := exists_fetch hm
    obtain ⟨hu, hprog, -⟩ := executeInstruction_underway hw hi
    obtain ⟨hprog', -⟩ := conclude_keeps i (executeInstruction i (m.begin i))
    rw [step_of_fetch hi]
    exact ⟨conclude_wellFormed hu, hprog'.trans hprog⟩

theorem wellFormed_after (hw : m.WellFormed) (n : Nat) :
    (after n m).WellFormed ∧ (after n m).program = m.program := by
  induction n generalizing m with
  | zero => exact ⟨hw, rfl⟩
  | succ n ih =>
    obtain ⟨hw₁, hprog₁⟩ := wellFormed_step hw
    obtain ⟨hw₂, hprog₂⟩ := ih hw₁
    exact ⟨hw₂, hprog₂.trans hprog₁⟩

end Stackline.Machine
