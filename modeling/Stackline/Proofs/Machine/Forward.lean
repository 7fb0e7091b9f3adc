import Stackline.Proofs.Machine.Errors
import Stackline.Proofs.Machine.Subroutine

/-!
# Programs that only jump forward

If all jumps of a program go forward, it halts (`forward_halts`), although a `RETURN` goes back and
an instruction may be executed many times.  From a position with `n` instructions ahead there are at
most `horizon n` steps: the first instruction may be a call, and then the others are executed once
in the subroutine and once more after the return.  `outlook` adds up what is ahead of the pointer
and what is ahead of each line to return to.  Every step lowers it (`outlook_step`).
-/

namespace Stackline

open Machine (isJump)

/-- An instruction that, if it is a jump, has a later line for its target or none at all.  The target
is not looked up among the operands, where any line might be found. -/
def Instruction.Forward (i : Instruction) : Prop :=
  i.opcode.any isJump = true → ∀ param ∈ i.params.head?,
    (Text.trim param.toList).head? ≠ some '@' ∧ (Text.trim param.toList).head? ≠ some '$' ∧
      (Number.integerPrefix (Text.trim param.toList)).all
        (fun target => (i.line.toNat : Int) < target.toInt) = true

instance (i : Instruction) : Decidable i.Forward := by
  delta Instruction.Forward
  infer_instance

/-- All jumps go forward. -/
def Program.Forward (p : Program) : Prop := ∀ i ∈ p.toList, i.Forward

instance (p : Program) : Decidable p.Forward :=
  inferInstanceAs (Decidable (∀ i ∈ p.toList, i.Forward))

namespace Machine

variable {α : Type} {o : Opcode} {p : Program} {i : Instruction} {k : Nat} {c : Stack LineNumber}
  {m : Machine}

/-! ### In the middle of a step -/

/-- A machine that executes the instruction `i` at the position `k` of the program `p`: it has not
left that position yet, or it is at a later one.  The line of `i`, and not the pointer, is what a
target is later than, so this is said of the position where the step began. -/
structure Onward (p : Program) (i : Instruction) (k : Nat) (c : Stack LineNumber) (m : Machine) :
    Prop where
  program : m.program = p
  current : m.current = some i
  calls : m.calls = c
  pointer : (m.pc = k ∧ m.branched = false ∧ m.killed = false) ∨ k < m.pc

theorem onward_begin (hm : m.isRunning = true) (i : Instruction) :
    Onward m.program i m.pc m.calls (m.begin i) :=
  ⟨rfl, rfl, rfl, .inl ⟨rfl, rfl, (isRunning_iff.mp hm).1⟩⟩

theorem Onward.withCalls (h : Onward p i k c m) (lines : List LineNumber) :
    Onward p i k (.ofEntries lines) (m.withCalls lines) :=
  ⟨h.program, h.current, rfl, h.pointer⟩

/-- A jump of an instruction that only jumps forward. -/
theorem lt_pc_jump (hi : i.Forward) (ho : i.opcode = some o) (hj : isJump o = true)
    (hk : p.get? k = some i) (hp : m.program = p) (hc : m.current = some i) : k < m.jump.pc := by
  have hsize : k < m.program.size := hp ▸ Program.lt_of_get? hk
  have htarget : m.target? = i.params.head? := by
    unfold target?
    rw [hc]
    rfl
  unfold jump
  rw [htarget]
  cases hparam : i.params.head? with
  | none => exact hsize
  | some param =>
    obtain ⟨ha, hd, hline⟩ := hi (by rw [ho]; exact hj) param hparam
    simp only [reference_of_plain m ha hd, Value.toInteger?, String.toList_ofList]
    cases hn : Number.integerPrefix (Text.trim param.toList) with
    | none => exact hsize
    | some target =>
      rw [hn, Option.all_some, decide_eq_true_iff] at hline
      obtain ⟨log, hjump⟩ := jumpToLine_eq m target.toInt
      simp only [hjump, hp]
      exact (Program.lt_before_iff hk target.toInt).mp hline

theorem Onward.jump (h : Onward p i k c m) (hi : i.Forward) (ho : i.opcode = some o)
    (hj : isJump o = true) (hk : p.get? k = some i) : Onward p i k c m.jump := by
  have hlt := lt_pc_jump hi ho hj hk h.program h.current
  obtain ⟨operands, pc, log, -, -, hjump⟩ := jump_eq m
  rw [hjump] at hlt ⊢
  exact ⟨h.program, h.current, h.calls, .inr hlt⟩

/-- What is put together for an operation other than a call and a return goes on from its position,
if it leaves it, and keeps the lines to return to. -/
theorem Composed.onward {act : Act α} (hact : Composed o act) (hi : i.Forward)
    (ho : i.opcode = some o) (hk : p.get? k = some i) (hcall : o ≠ .gosub) (hret : o ≠ .ret)
    (h : Onward p i k c m) : Onward p i k c (endState (act m)) := by
  induction hact using Composed.induct_plain generalizing m with
  | plain _ hplain =>
    obtain ⟨operands, registers, input, sink, exchanges, hm⟩ := hplain.frame m
    rw [hm]
    exact ⟨h.program, h.current, h.calls, h.pointer⟩
  | bind _ _ iha ihf => exact endState_bind (iha h) fun a _ h₁ => ihf a h₁
  | look hf ih => exact ih _ _ _ h
  | check name n =>
    by_cases hn : n ≤ m.depth name
    · rw [requireOn_of_le hn]
      exact h
    · rw [requireOn_of_lt (Nat.not_le.mp hn)]
      exact ⟨h.program, h.current, h.calls, h.pointer⟩
  | jump hj => exact h.jump hi ho hj hk
  | call hgosub => exact absurd hgosub hcall
  | ret hreturn => exact absurd hreturn hret
  | report => exact ⟨h.program, h.current, h.calls, h.pointer⟩
  | kill =>
    have hsize : k < m.program.size := h.program ▸ Program.lt_of_get? hk
    exact ⟨h.program, h.current, h.calls, .inr hsize⟩

/-- An instruction with or without an operation that is no call and no return. -/
theorem onward_execute (hi : i.Forward) (hk : p.get? k = some i) (hcall : i.opcode ≠ some .gosub)
    (hret : i.opcode ≠ some .ret) (h : Onward p i k c m) :
    Onward p i k c (endState (executeInstruction i m)) := by
  cases ho : i.opcode with
  | none =>
    unfold executeInstruction
    rw [ho]
    exact ⟨h.program, h.current, h.calls, h.pointer⟩
  | some o =>
    rw [executeInstruction_of_some ho]
    rw [ho] at hcall hret
    exact (composed_execute o).onward hi ho hk (fun he => hcall (congrArg some he))
      (fun he => hret (congrArg some he)) h

/-- The end of a step leads past the position. -/
theorem Onward.conclude {r : EStateM.Result Error Machine Unit} (h : Onward p i k c (endState r))
    (hk : p.get? k = some i) : (endState (conclude i r)).program = p ∧
      (endState (conclude i r)).calls = c ∧ k < (endState (conclude i r)).pc := by
  have hsize : k < (endState r).program.size := h.program ▸ Program.lt_of_get? hk
  have hend := concluded i r
  generalize Machine.conclude i r = r' at hend ⊢
  cases hend with
  | moved m =>
    obtain ⟨hp, -, hc, hpc⟩ := h
    rw [endState_ok] at hp hc hpc ⊢
    unfold advance
    split
    · next hset =>
      refine ⟨hp, hc, ?_⟩
      rcases hpc with ⟨-, hb, hkill⟩ | hlt
      · rw [hb, hkill] at hset
        cases hset
      · exact hlt
    · exact ⟨hp, hc, by show k < m.pc + 1; omega⟩
  | faulted m log _ => exact ⟨h.program, h.calls, hsize⟩
  | reported m _ => exact ⟨h.program, h.calls, hsize⟩

/-! ### What is ahead -/

/-- The greatest number of steps from a position with `n` instructions ahead, `2 ^ n - 1`: after the
first instruction there are the others, and once more if it was a call. -/
def horizon (n : Nat) : Nat := Nat.pow 2 n - 1

theorem horizon_succ (n : Nat) : horizon (n + 1) = 2 * horizon n + 1 := by
  have hpos : 0 < Nat.pow 2 n := Nat.pow_pos (by decide)
  have hsucc : Nat.pow 2 (n + 1) = Nat.pow 2 n * 2 := rfl
  unfold horizon
  omega

theorem horizon_mono {n n' : Nat} (h : n ≤ n') : horizon n ≤ horizon n' := by
  induction h with
  | refl => exact Nat.le_refl _
  | step _ ih =>
    rw [horizon_succ]
    omega

/-- The greatest number of steps from a position. -/
def ahead (p : Program) (k : Nat) : Nat := horizon (p.size - k)

/-- The greatest number of steps behind the lines to return to. -/
def aheadOfCalls (p : Program) : List LineNumber → Nat
  | [] => 0
  | line :: lines => ahead p (p.before (line.toNat + 1)) + aheadOfCalls p lines

/-- A bound on the number of steps that a machine can still make. -/
def outlook (m : Machine) : Nat := ahead m.program m.pc + aheadOfCalls m.program m.calls.entries

theorem ahead_mono (p : Program) {k k' : Nat} (h : k ≤ k') : ahead p k' ≤ ahead p k :=
  horizon_mono (by omega)

theorem ahead_of_lt (h : k < p.size) : ahead p k = 2 * ahead p (k + 1) + 1 := by
  have hsize : p.size - k = p.size - (k + 1) + 1 := by omega
  unfold ahead
  rw [hsize, horizon_succ]

/-- A step that ends behind the position `k`. -/
theorem outlook_conclude {r : EStateM.Result Error Machine Unit} (h : Onward p i k c (endState r))
    (hk : p.get? k = some i) :
    (endState (conclude i r)).outlook ≤ ahead p (k + 1) + aheadOfCalls p c.entries := by
  obtain ⟨hp, hc, hlt⟩ := h.conclude hk
  unfold outlook
  rw [hp, hc]
  exact Nat.add_le_add_right (ahead_mono p hlt) _

/-- A call doubles what is ahead of the place behind it. -/
theorem outlook_step_gosub (hm : m.fetch? = some i) (hi : i.Forward)
    (ho : i.opcode = some .gosub) : (endState (step m)).outlook ≤
      2 * ahead m.program (m.pc + 1) + aheadOfCalls m.program m.calls.entries := by
  obtain ⟨hrun, hk⟩ := fetch?_eq_some_iff.mp hm
  have hcur : (m.begin i).current = some i := rfl
  have hbegin := onward_begin hrun i
  rw [step_of_fetch hm, executeInstruction_of_some ho]
  show (endState (conclude i (callLine (m.begin i)))).outlook ≤ _
  by_cases hroom : (m.begin i).calls.size < Stack.capacity
  · rw [callLine_of_lt hcur hroom]
    -- behind the line just remembered is the next position, and the subroutine begins there or later
    have hbehind := Program.before_line_succ hk
    have hle := outlook_conclude (r := .ok () _)
      ((hbegin.withCalls (i.line :: m.calls.entries)).jump hi ho rfl hk) hk
    have hcalls : aheadOfCalls m.program (i.line :: m.calls.entries) =
        ahead m.program (m.pc + 1) + aheadOfCalls m.program m.calls.entries := by
      rw [aheadOfCalls, hbehind]
    rw [Stack.entries_ofEntries, hcalls] at hle
    exact Nat.le_trans hle (by omega)
  · rw [callLine_of_full hcur (Nat.not_lt.mp hroom)]
    have hle :=
      outlook_conclude (r := .error { cause := .overflow callsFull } (m.begin i)) hbegin hk
    exact Nat.le_trans hle (by omega)

/-- A return goes to what is ahead of the line on top. -/
theorem outlook_step_ret (hm : m.fetch? = some i) (ho : i.opcode = some .ret) :
    (endState (step m)).outlook ≤
      ahead m.program (m.pc + 1) + aheadOfCalls m.program m.calls.entries := by
  obtain ⟨hrun, hk⟩ := fetch?_eq_some_iff.mp hm
  cases hc : m.calls.entries with
  | cons line c =>
    obtain ⟨m', hstep, hcalls, hpc, -⟩ := step_return hm ho hc
    have hprog := (step_stoppedBy hm).1
    rw [hstep, endState_ok] at hprog
    rw [hstep, endState_ok, outlook, hcalls, hpc, hprog]
    exact Nat.le_add_left _ _
  | nil =>
    have hr : execute .ret (m.begin i) = .error { cause := .noCall } (m.begin i) :=
      returnToLine_of_nil hc
    rw [step_of_fetch hm, executeInstruction_of_some ho, hr, ← hc]
    exact outlook_conclude (r := .error { cause := .noCall } (m.begin i))
      (onward_begin hrun i) hk

/-- **Every step lowers the outlook.** -/
theorem outlook_step (hf : m.program.Forward) (hm : m.isRunning = true) :
    (endState (step m)).outlook < m.outlook := by
  obtain ⟨i, hfetch⟩ := exists_fetch hm
  obtain ⟨-, hk⟩ := fetch?_eq_some_iff.mp hfetch
  obtain ⟨-, hlt⟩ := isRunning_iff.mp hm
  have hi : i.Forward := hf i (Program.mem_of_get? hk)
  -- what is ahead of a position is once more than twice what is ahead of the next
  suffices hle : (endState (step m)).outlook ≤
      2 * ahead m.program (m.pc + 1) + aheadOfCalls m.program m.calls.entries by
    have := ahead_of_lt hlt
    unfold outlook at hle ⊢
    omega
  by_cases hcall : i.opcode = some .gosub
  · exact outlook_step_gosub hfetch hi hcall
  · by_cases hret : i.opcode = some .ret
    · have := outlook_step_ret hfetch hret
      omega
    · have := outlook_conclude (onward_execute hi hk hcall hret (onward_begin hm i)) hk
      rw [step_of_fetch hfetch]
      omega

/-! ### Runs -/

/-- A running machine has an outlook, and steps use it up. -/
theorem isRunning_after (hf : m.program.Forward) {n : Nat} (h : m.outlook ≤ n) :
    (after n m).isRunning = false := by
  induction n generalizing m with
  | zero =>
    cases hm : m.isRunning with
    | false => exact hm
    | true =>
      have := outlook_step hf hm
      omega
  | succ n ih =>
    cases hm : m.isRunning with
    | false => rw [after_of_stopped hm, hm]
    | true =>
      obtain ⟨i, hi⟩ := exists_fetch hm
      have hprog := (step_stoppedBy hi).1
      have hlt := outlook_step hf hm
      exact ih (hprog ▸ hf) (by omega)

/-- As many steps as bring a machine to rest are enough for a run. -/
theorem exists_run_of_stopped {n : Nat} (h : (after n m).isRunning = false) :
    ∃ r, run n m = some r := by
  induction n generalizing m with
  | zero => exact ⟨_, run_of_stopped h 0⟩
  | succ n ih =>
    cases hm : m.isRunning with
    | false => exact ⟨_, run_of_stopped hm (n + 1)⟩
    | true =>
      cases hs : step m with
      | ok _ m₁ =>
        rw [run_step_ok hm hs]
        refine ih ?_
        rwa [after, hs] at h
      | error e m₁ => exact ⟨_, run_step_error hm hs⟩

/-- **Programs that only jump forward halt.**  Let every jump of a program have a later line for its
target, or none at all; there may be a `RETURN` anywhere.  Whatever the host delivers, the machine
does not run any more after `2 ^ n - 1` steps, where `n` is the number of instructions, and a run
needs no more steps than that. -/
theorem forward_halts {p : Program} (h : p.Forward) (source : Source) (sink : Sink) :
    (stateAt p source sink (horizon p.size)).isRunning = false ∧
      ∃ r, run (horizon p.size) (start p source sink) = some r := by
  have houtlook : (start p source sink).outlook = horizon p.size := Nat.add_zero _
  have hstop : (stateAt p source sink (horizon p.size)).isRunning = false :=
    isRunning_after h (Nat.le_of_eq houtlook)
  exact ⟨hstop, exists_run_of_stopped hstop⟩

/-- Two calls, after each of which all lines behind it are executed twice. -/
def twofold : Program :=
  .ofInstructions [.ofMnemonic 10 "GOSUB" ["20"],
    .ofMnemonic 20 "GOSUB" [" 25 "],
    .ofMnemonic 30 "PUSH" ["1"],
    .ofMnemonic 40 "RETURN" []]

/-- The third line is executed four times, and the run ends within fifteen steps. -/
theorem forward_halts_twofold : twofold.Forward ∧
    (stateAt twofold (.ofText "") .capture 10).isRunning = true ∧
    (stateAt twofold (.ofText "") .capture 10).operands.size = 4 ∧
    (stateAt twofold (.ofText "") .capture 15).isRunning = false ∧
    ∃ r, run 15 (start twofold (.ofText "") .capture) = some r := by
  have hforward : twofold.Forward := by decide
  have hhalts := forward_halts hforward (.ofText "") .capture
  exact ⟨hforward, by decide +kernel, by decide +kernel, hhalts⟩

end Machine

end Stackline
