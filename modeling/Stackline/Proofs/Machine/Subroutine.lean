import Stackline.Proofs.Machine.Invariant

/-!
# Subroutines

A `GOSUB` remembers its line, and the `RETURN` that matches it goes on behind that line.  As long as
more lines are remembered than before the call, the line of the call stays under the others
(`suffix_after`): an operation either forgets the latest lines or, if it is a `GOSUB`, puts one on
top (`step_calls`).  So the `RETURN` that brings the number of lines back finds the line of the
call, and the place behind a line is the position behind its instruction
(`Program.before_line_succ`).
-/

namespace Stackline.Machine

variable {m : Machine} {i j : Instruction}

/-! ### One step -/

theorem calls_conclude (i : Instruction) (r : EStateM.Result Error Machine Unit) :
    (endState (conclude i r)).calls = (endState r).calls := by
  have h := concluded i r
  generalize conclude i r = r' at h ⊢
  cases h with
  | moved m =>
    show m.advance.calls = m.calls
    unfold advance
    split <;> rfl
  | reported m _ => rfl
  | faulted m log _ => rfl

/-- A step that is no `GOSUB` at most forgets the latest lines. -/
theorem suffix_step (hi : m.fetch? = some i) (ho : i.opcode ≠ some .gosub) :
    (endState (step m)).calls.entries <:+ m.calls.entries := by
  rw [step_of_fetch hi, calls_conclude]
  cases hop : i.opcode with
  | none =>
    unfold executeInstruction
    rw [hop]
    exact List.suffix_rfl
  | some o =>
    have hne : o ≠ .gosub := by
      rintro rfl
      exact ho hop
    rw [executeInstruction_of_some hop]
    exact (kept_execute o (m.begin i)).calls_suffix hne

/-- A `GOSUB` puts its line on top, unless there is no room. -/
theorem calls_step_gosub (hi : m.fetch? = some i) (ho : i.opcode = some .gosub) :
    (endState (step m)).calls.entries =
      if m.calls.size < Stack.capacity then i.line :: m.calls.entries else m.calls.entries := by
  have hcur : (m.begin i).current = some i := rfl
  rw [step_of_fetch hi, calls_conclude, executeInstruction_of_some ho]
  show (endState (callLine (m.begin i))).calls.entries = _
  split
  · rename_i hroom
    obtain ⟨operands, pc, log, -, -, hj⟩ :=
      jump_eq ((m.begin i).withCalls (i.line :: (m.begin i).calls.entries))
    rw [callLine_of_lt hcur hroom, endState_ok, hj]
    rfl
  · rename_i hroom
    have hfull : Stack.capacity ≤ (m.begin i).calls.size := Nat.not_lt.mp hroom
    rw [callLine_of_full hcur hfull]
    rfl

/-- A step forgets the latest lines, or puts one on top. -/
theorem step_calls (m : Machine) :
    (endState (step m)).calls.entries <:+ m.calls.entries ∨
      ∃ l, (endState (step m)).calls.entries = l :: m.calls.entries := by
  cases hm : m.isRunning with
  | false =>
    rw [step_of_stopped hm]
    exact .inl List.suffix_rfl
  | true =>
    obtain ⟨i, hi⟩ := exists_fetch hm
    by_cases ho : i.opcode = some .gosub
    · have hcalls := calls_step_gosub hi ho
      split at hcalls
      · exact .inr ⟨i.line, hcalls⟩
      · exact .inl (hcalls ▸ List.suffix_rfl)
    · exact .inl (suffix_step hi ho)

/-- A `RETURN` forgets the latest line and goes to the place behind it. -/
theorem step_return {line : LineNumber} {c : List LineNumber} (hi : m.fetch? = some i)
    (ho : i.opcode = some .ret) (hc : m.calls.entries = line :: c) :
    ∃ m', step m = .ok () m' ∧ m'.calls.entries = c ∧
      m'.pc = m.program.before (line.toNat + 1) ∧ m'.killed = false := by
  have hk : m.killed = false := (isRunning_iff.mp (fetch?_eq_some_iff.mp hi).1).1
  have hc' : (m.begin i).calls.entries = line :: c := hc
  obtain ⟨log, hj⟩ := jumpToLine_eq ((m.begin i).withCalls c) (line.toNat + 1)
  have hr : execute .ret (m.begin i) = .ok () (((m.begin i).withCalls c).jumpToLine
      (line.toNat + 1) true) := returnToLine_of_cons hc'
  rw [hj] at hr
  rw [step_of_fetch hi, executeInstruction_of_some ho, hr]
  exact ⟨_, rfl, rfl, rfl, hk⟩

/-! ### Many steps -/

theorem after_succ (n : Nat) (m : Machine) : after (n + 1) m = endState (step (after n m)) := by
  induction n generalizing m with
  | zero => rfl
  | succ n ih => exact ih (endState (step m))

theorem after_add (n k : Nat) (m : Machine) : after (n + k) m = after k (after n m) := by
  induction k with
  | zero => rfl
  | succ k ih => rw [← Nat.add_assoc, after_succ, after_succ, ih]

/-- A machine that does not run stays as it is. -/
theorem after_of_stopped (h : m.isRunning = false) (n : Nat) : after n m = m := by
  induction n with
  | zero => rfl
  | succ n ih => rw [after_succ, ih, step_of_stopped h, endState_ok]

/-- **Remembered lines stay** under those that come later, as long as there are no fewer. -/
theorem suffix_after {c : List LineNumber} (hc : c <:+ m.calls.entries) (n : Nat)
    (hdeep : ∀ k ≤ n, c.length ≤ (after k m).calls.entries.length) :
    c <:+ (after n m).calls.entries := by
  induction n with
  | zero => exact hc
  | succ n ih =>
    have hn : c <:+ (after n m).calls.entries := ih fun k hk => hdeep k (by omega)
    have hlen := hdeep (n + 1) (Nat.le_refl _)
    rw [after_succ] at hlen ⊢
    rcases step_calls (after n m) with hsuf | ⟨l, hl⟩
    · exact List.suffix_of_suffix_length_le hn hsuf hlen
    · rw [hl]
      exact hn.trans (List.suffix_cons l _)

/-- The line of a call is on top once there is only one line more than before the call. -/
theorem calls_of_matched {n : Nat} (hi : m.fetch? = some i) (ho : i.opcode = some .gosub)
    (hdeep : ∀ k, 0 < k → k ≤ n + 1 → m.calls.size < (after k m).calls.size)
    (hlast : (after (n + 1) m).calls.size = m.calls.size + 1) :
    (after (n + 1) m).calls.entries = i.line :: m.calls.entries := by
  -- there was room, since the call made the stack deeper
  have hcall : (after 1 m).calls.entries = i.line :: m.calls.entries := by
    have hcalls := calls_step_gosub hi ho
    have hgrown := hdeep 1 (by omega) (by omega)
    rw [← (after 1 m).calls.size_eq, ← m.calls.size_eq] at hgrown
    split at hcalls
    · exact hcalls
    · rw [show (after 1 m).calls.entries = m.calls.entries from hcalls] at hgrown
      exact absurd hgrown (Nat.lt_irrefl _)
  have hsuf : i.line :: m.calls.entries <:+ (after n (after 1 m)).calls.entries := by
    refine suffix_after (hcall ▸ List.suffix_rfl) n fun k hk => ?_
    have := hdeep (1 + k) (by omega) (by omega)
    rw [after_add, ← (after k (after 1 m)).calls.size_eq, ← m.calls.size_eq] at this
    exact this
  have hlen : (i.line :: m.calls.entries).length = (after n (after 1 m)).calls.entries.length := by
    rw [← after_add, Nat.add_comm, (after (n + 1) m).calls.size_eq, hlast, List.length_cons,
      m.calls.size_eq]
  rw [Nat.add_comm, after_add]
  exact (hsuf.eq_of_length hlen).symm

/-! ### Calls and returns of a program -/

/-- The machine after some steps of a program. -/
def stateAt (p : Program) (source : Source) (sink : Sink) (n : Nat) : Machine :=
  after n (start p source sink)

theorem stateAt_add (p : Program) (source : Source) (sink : Sink) (n k : Nat) :
    stateAt p source sink (n + k) = after k (stateAt p source sink n) :=
  after_add n k _

/-- What is well formed at the start stays so; and without a stop there is no fault. -/
theorem stateAt_wellFormed (p : Program) (source : Source) (sink : Sink) (n : Nat) :
    (stateAt p source sink n).WellFormed ∧ (stateAt p source sink n).program = p :=
  wellFormed_after (start_wellFormed p source sink) n

theorem WellFormed.faults_eq_nil (hw : m.WellFormed) (hk : m.killed = false) : m.faults = [] := by
  by_cases hf : m.faults = []
  · exact hf
  · rw [hw.killed hf] at hk
    cases hk

/-- **Calls and returns match.**  Let a program execute a `GOSUB` after `a` steps and a `RETURN`
after `b` steps, where from the call up to the `RETURN` more lines are remembered than before the
call, and after the `RETURN` as many.  Then the lines remembered are those from before the call, and
the machine goes on at the position behind the `GOSUB`.  If that is the end of the program, the run
is over, and it has neither been stopped nor met a fault. -/
theorem return_matches_gosub {p : Program} {source : Source} {sink : Sink} {a b : Nat}
    {i j : Instruction} (hi : (stateAt p source sink a).fetch? = some i)
    (ho : i.opcode = some .gosub) (hab : a < b)
    (hdeep : ∀ k, a < k → k ≤ b →
      (stateAt p source sink a).calls.size < (stateAt p source sink k).calls.size)
    (hj : (stateAt p source sink b).fetch? = some j) (hret : j.opcode = some .ret)
    (hback : (stateAt p source sink (b + 1)).calls.size = (stateAt p source sink a).calls.size) :
    step (stateAt p source sink b) = .ok () (stateAt p source sink (b + 1)) ∧
    (stateAt p source sink (b + 1)).calls = (stateAt p source sink a).calls ∧
    (stateAt p source sink (b + 1)).pc = (stateAt p source sink a).pc + 1 ∧
    ((stateAt p source sink a).pc + 1 = p.size → ∀ n, b < n →
      (stateAt p source sink n).isRunning = false ∧ (stateAt p source sink n).killed = false ∧
        (stateAt p source sink n).faults = []) := by
  obtain ⟨n, rfl⟩ : ∃ n, b = a + (n + 1) := ⟨b - a - 1, by omega⟩
  obtain ⟨-, hprog⟩ := stateAt_wellFormed p source sink (a + (n + 1))
  obtain ⟨hwend, hpend⟩ := stateAt_wellFormed p source sink (a + (n + 1) + 1)
  have hget := (fetch?_eq_some_iff.mp hi).2
  rw [(stateAt_wellFormed p source sink a).2] at hget
  -- the `RETURN` finds some line on top, and forgets only that one
  obtain ⟨line, c, hc⟩ := Stack.exists_cons_of_size
    (Nat.lt_of_le_of_lt (Nat.zero_le _) (hdeep (a + (n + 1)) hab (Nat.le_refl _)))
  obtain ⟨m', hstep, hcalls, hpc, hk⟩ := step_return hj hret hc
  have hend : stateAt p source sink (a + (n + 1) + 1) = m' := by
    rw [stateAt_add p source sink (a + (n + 1)) 1]
    show endState (step (stateAt p source sink (a + (n + 1)))) = m'
    rw [hstep, endState_ok]
  have hlast : (stateAt p source sink (a + (n + 1))).calls.size =
      (stateAt p source sink a).calls.size + 1 := by
    rw [← hback, hend, ← m'.calls.size_eq, hcalls, ← (stateAt p source sink _).calls.size_eq, hc,
      List.length_cons]
  -- by its depth that is the line of the call
  have htop : line :: c = i.line :: (stateAt p source sink a).calls.entries := by
    rw [stateAt_add] at hc hlast
    rw [← hc]
    refine calls_of_matched hi ho (fun k hk₀ hk₁ => ?_) hlast
    have := hdeep (a + k) (by omega) (by omega)
    rwa [stateAt_add] at this
  obtain ⟨rfl, rfl⟩ := List.cons.inj htop
  have hbehind : m'.pc = (stateAt p source sink a).pc + 1 := by
    rw [hpc, hprog]
    exact Program.before_line_succ hget
  rw [hend] at hwend hpend ⊢
  refine ⟨hstep, Stack.ext hcalls, hbehind, fun hsize l hl => ?_⟩
  have hover : m'.isRunning = false := by
    rw [← Bool.not_eq_true, isRunning_iff, hbehind, hpend]
    omega
  obtain ⟨k, rfl⟩ : ∃ k, l = a + (n + 1) + 1 + k := ⟨l - (a + (n + 1) + 1), by omega⟩
  rw [stateAt_add, hend, after_of_stopped hover]
  exact ⟨hover, hk, hwend.faults_eq_nil hk⟩

/-- A call on the last line that there can be, of a subroutine before it. -/
def lastCall : Program :=
  .ofInstructions [.ofMnemonic 10 "GOTO" ["4294967295"],
    .ofMnemonic 20 "RETURN" [],
    .ofMnemonic 4294967295 "GOSUB" ["20"]]

/-- The call returns behind the last line, where the run is over. -/
theorem return_matches_gosub_lastCall :
    (stateAt lastCall (.ofText "") .capture 1).pc = 2 ∧
    (stateAt lastCall (.ofText "") .capture 2).calls.entries = [4294967295] ∧
    (stateAt lastCall (.ofText "") .capture 3).pc = 3 ∧
    (stateAt lastCall (.ofText "") .capture 3).isRunning = false ∧
    (stateAt lastCall (.ofText "") .capture 3).killed = false ∧
    (stateAt lastCall (.ofText "") .capture 3).faults = [] := by
  have hcall : (stateAt lastCall (.ofText "") .capture 1).pc = 2 := by decide +kernel
  have hinside : (stateAt lastCall (.ofText "") .capture 2).calls.entries = [4294967295] := by
    decide +kernel
  have hdeep : ∀ k, 1 < k → k ≤ 2 → (stateAt lastCall (.ofText "") .capture 1).calls.size <
      (stateAt lastCall (.ofText "") .capture k).calls.size := by
    intro k hk₁ hk₂
    obtain rfl : k = 2 := by omega
    decide +kernel
  have hi : (stateAt lastCall (.ofText "") .capture 1).fetch? =
      some (.ofMnemonic 4294967295 "GOSUB" ["20"]) := by decide +kernel
  have hj : (stateAt lastCall (.ofText "") .capture 2).fetch? =
      some (.ofMnemonic 20 "RETURN" []) := by decide +kernel
  obtain ⟨-, -, hpc, hend⟩ :=
    return_matches_gosub hi (by decide +kernel) (by decide) hdeep hj (by decide +kernel)
      (by decide +kernel)
  obtain ⟨hover, hk, hf⟩ := hend (by decide +kernel) 3 (by decide)
  exact ⟨hcall, hinside, hpc.trans (congrArg (· + 1) hcall), hover, hk, hf⟩

end Stackline.Machine
