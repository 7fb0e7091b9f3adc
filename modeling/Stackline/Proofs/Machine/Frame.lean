import Stackline.Proofs.Machine.Parts
import Stackline.Proofs.Machine.Run
import Stackline.Proofs.Program.Index

/-!
# What operations keep

`Kept o m m'` says what the operation `o` leaves alone on the way from `m` to `m'`: the program, the
current instruction and the faults stay; the stacks stay within their bounds; the pointer stays
too, unless the machine branched or was stopped; and only `GOSUB` remembers a line, that of the
current instruction, while the other operations at most forget the latest lines.  `kept_execute`
says it of every operation, however it ends.
-/

namespace Stackline.Machine

variable {α β : Type} {o : Opcode} {m m₁ m₂ m₃ : Machine}

/-- What an operation leaves alone. -/
structure Kept (o : Opcode) (m₁ m₂ : Machine) : Prop where
  program : m₂.program = m₁.program
  current : m₂.current = m₁.current
  faults : m₂.faults = m₁.faults
  killed : m₁.killed = true → m₂.killed = true
  bounded : m₁.Bounded → m₂.Bounded
  pointer : (m₂.pc = m₁.pc ∧ m₂.branched = m₁.branched ∧ m₂.killed = m₁.killed) ∨
    ((m₂.branched = true ∨ m₂.killed = true) ∧ m₂.pc ≤ m₁.program.size)
  calls : ∀ l ∈ m₂.calls.entries,
    l ∈ m₁.calls.entries ∨ (o = .gosub ∧ ∃ i, m₁.current = some i ∧ i.line = l)
  calls_suffix : o ≠ .gosub → m₂.calls.entries <:+ m₁.calls.entries

theorem Kept.refl (o : Opcode) (m : Machine) : Kept o m m :=
  ⟨rfl, rfl, rfl, id, id, .inl ⟨rfl, rfl, rfl⟩, fun _ hl => .inl hl, fun _ => List.suffix_rfl⟩

theorem Kept.trans (h : Kept o m₁ m₂) (h' : Kept o m₂ m₃) : Kept o m₁ m₃ where
  program := h'.program.trans h.program
  current := h'.current.trans h.current
  faults := h'.faults.trans h.faults
  killed hk := h'.killed (h.killed hk)
  bounded hb := h'.bounded (h.bounded hb)
  pointer := by
    rcases h'.pointer with ⟨hpc, hbr, hk⟩ | h2
    · rw [hpc, hbr, hk]; exact h.pointer
    · rw [h.program] at h2; exact .inr h2
  calls l hl := by
    rcases h'.calls l hl with hl | ⟨ho, i, hi, hli⟩
    · exact h.calls l hl
    · exact .inr ⟨ho, i, h.current ▸ hi, hli⟩
  calls_suffix ho := (h'.calls_suffix ho).trans (h.calls_suffix ho)

/-- What changes nothing but the stacks of values, what passes to the host and the events, and does
not let a stack grow too large, is kept. -/
theorem Kept.of_frame (hprog : m₂.program = m₁.program) (hcur : m₂.current = m₁.current)
    (hf : m₂.faults = m₁.faults) (hk : m₂.killed = m₁.killed) (hpc : m₂.pc = m₁.pc)
    (hbr : m₂.branched = m₁.branched) (hc : m₂.calls = m₁.calls)
    (ho : m₁.Bounded → m₂.operands.size ≤ Stack.capacity)
    (hr : m₁.Bounded → m₂.registers.size ≤ Stack.capacity) : Kept o m₁ m₂ where
  program := hprog
  current := hcur
  faults := hf
  killed h := hk.trans h
  bounded hb := ⟨ho hb, hr hb, by rw [hc]; exact hb.calls⟩
  pointer := .inl ⟨hpc, hbr, hk⟩
  calls l hl := .inl (by rwa [hc] at hl)
  calls_suffix _ := hc ▸ List.suffix_rfl

theorem Kept.note (o : Opcode) (m : Machine) (e : Event) : Kept o m (m.note e) :=
  .of_frame rfl rfl rfl rfl rfl rfl rfl (fun hb => hb.operands) (fun hb => hb.registers)

theorem Kept.of_stack (name : StackName) {s : Stack Value}
    (h : m.Bounded → s.size ≤ Stack.capacity) : Kept o m (m.withStack name s) := by
  cases name with
  | operand => exact .of_frame rfl rfl rfl rfl rfl rfl rfl h fun hb => hb.registers
  | register => exact .of_frame rfl rfl rfl rfl rfl rfl rfl (fun hb => hb.operands) h

theorem Kept.of_host (m : Machine) (input : Input) (sink : Sink) (xs : Array Exchange) :
    Kept o m { m with input := input, sink := sink, exchanges := xs } :=
  .of_frame rfl rfl rfl rfl rfl rfl rfl (fun hb => hb.operands) (fun hb => hb.registers)

/-! ### Jumps -/

theorem resolve_index (m : Machine) (target : Int) : m.index.resolve target =
    if m.program.before target < m.program.size then some (m.program.before target) else none := by
  rw [m.index_eq, LineIndex.resolve_eq]

/-- A settled jump goes past the instructions before its line, and may note that there is no such
line. -/
theorem jumpToLine_eq (m : Machine) (target : Int) : ∃ log, m.jumpToLine target true =
    { m with pc := m.program.before target, branched := true, log := log } := by
  have hle := m.program.before_le_size target
  unfold jumpToLine
  rw [resolve_index]
  by_cases hlt : m.program.before target < m.program.size
  · rw [if_pos hlt]
    exact ⟨m.log, rfl⟩
  · rw [if_neg hlt, show m.program.before target = m.program.size by omega]
    exact ⟨_, rfl⟩

/-- Looking a parameter up may take out an operand. -/
theorem reference_eq (m : Machine) (param : String) : ∃ operands,
    operands.size ≤ m.operands.size ∧ (m.reference param).2 = { m with operands := operands } := by
  unfold reference
  split
  · exact ⟨m.operands, Nat.le_refl _, rfl⟩
  · split
    · exact ⟨_, m.operands.size_remove?_le _, rfl⟩
    · exact ⟨m.operands, Nat.le_refl _, rfl⟩
  · exact ⟨m.operands, Nat.le_refl _, rfl⟩

/-- A parameter that is no reference stands for itself. -/
theorem reference_of_plain (m : Machine) {param : String}
    (ha : (Text.trim param.toList).head? ≠ some '@')
    (hd : (Text.trim param.toList).head? ≠ some '$') :
    m.reference param = (some (.text (.ofList (Text.trim param.toList))), m) := by
  unfold reference
  split
  · next h =>
    rw [h] at ha
    exact absurd rfl ha
  · next h =>
    rw [h] at hd
    exact absurd rfl hd
  · rfl

/-- A jump sets the pointer, and may take out an operand and note why it went to the end. -/
theorem jump_eq (m : Machine) : ∃ operands pc log,
    operands.size ≤ m.operands.size ∧ pc ≤ m.program.size ∧
    m.jump = { m with operands := operands, pc := pc, branched := true, log := log } := by
  unfold jump
  cases m.target? with
  | none => exact ⟨m.operands, m.program.size, _, Nat.le_refl _, Nat.le_refl _, rfl⟩
  | some param =>
    obtain ⟨operands, hsize, href⟩ := reference_eq m param
    simp only
    rcases hr : m.reference param with ⟨v, m'⟩
    rw [hr] at href
    obtain rfl : m' = { m with operands := operands } := href
    cases v with
    | none => exact ⟨operands, m.program.size, _, hsize, Nat.le_refl _, rfl⟩
    | some v =>
      simp only
      cases v.toInteger? with
      | none => exact ⟨operands, m.program.size, _, hsize, Nat.le_refl _, rfl⟩
      | some n =>
        obtain ⟨log, hj⟩ := jumpToLine_eq { m with operands := operands } n.toInt
        exact ⟨operands, _, log, hsize, m.program.before_le_size _, hj⟩

theorem kept_jump (m : Machine) : Kept o m m.jump := by
  obtain ⟨operands, pc, log, hsize, hpc, hj⟩ := jump_eq m
  rw [hj]
  exact ⟨rfl, rfl, rfl, id, fun hb => ⟨Nat.le_trans hsize hb.operands, hb.registers, hb.calls⟩,
    .inr ⟨.inl rfl, hpc⟩, fun _ hl => .inl hl, fun _ => List.suffix_rfl⟩

theorem kept_jumpToLine (m : Machine) (target : Int) : Kept o m (m.jumpToLine target true) := by
  obtain ⟨log, hj⟩ := jumpToLine_eq m target
  rw [hj]
  exact ⟨rfl, rfl, rfl, id, fun hb => ⟨hb.operands, hb.registers, hb.calls⟩,
    .inr ⟨.inl rfl, m.program.before_le_size target⟩, fun _ hl => .inl hl,
    fun _ => List.suffix_rfl⟩

theorem kept_kill (m : Machine) : Kept o m m.kill :=
  ⟨rfl, rfl, rfl, fun _ => rfl, fun hb => ⟨hb.operands, hb.registers, hb.calls⟩,
    .inr ⟨.inr rfl, Nat.le_refl _⟩, fun _ hl => .inl hl, fun _ => List.suffix_rfl⟩

/-! ### The parts -/

theorem kept_checkDepth (stack : StackName) (actual expected : Nat) (m : Machine) :
    Kept o m (endState (checkDepth stack actual expected m)) := by
  unfold checkDepth
  split
  · exact .refl o m
  · exact .note o m _

theorem Bounded.stack (h : m.Bounded) (name : StackName) :
    (m.stack name).size ≤ Stack.capacity := by
  cases name with
  | operand => exact h.operands
  | register => exact h.registers

/-- What does not let a stack grow too large, done to a stack of values. -/
theorem kept_onStack (name : StackName) {op : Stack Value → Stack.Result Value α}
    (hop : ∀ s, s.size ≤ Stack.capacity → (endState (op s)).size ≤ Stack.capacity) (m : Machine) :
    Kept o m (endState (onStack name op m)) := by
  have hsize (hb : m.Bounded) := hop _ (hb.stack name)
  unfold onStack
  cases hr : op (m.stack name) with
  | ok a s => exact .of_stack name fun hb => by simpa [hr] using hsize hb
  | error f s => exact .of_stack name fun hb => by simpa [hr] using hsize hb

theorem size_push_le (v : Value) (s : Stack Value) (h : s.size ≤ Stack.capacity) :
    (endState (s.push v)).size ≤ Stack.capacity := by
  unfold Stack.push
  split
  · rename_i hlt
    exact hlt
  · exact h

theorem size_pushAll_le (vs : List Value) (s : Stack Value) (h : s.size ≤ Stack.capacity) :
    (endState (s.pushAll vs)).size ≤ Stack.capacity := by
  unfold Stack.pushAll
  split
  · rename_i hle
    exact hle
  · exact h

theorem size_pop_le (s : Stack Value) (h : s.size ≤ Stack.capacity) :
    (endState s.pop).size ≤ Stack.capacity := by
  unfold Stack.pop
  split
  · exact h
  · exact Nat.le_trans (Nat.sub_le _ _) h

theorem kept_pushOn (name : StackName) (v : Value) (m : Machine) :
    Kept o m (endState (pushOn name v m)) :=
  kept_onStack name (size_push_le v) m

theorem kept_pushAll (vs : List Value) (m : Machine) : Kept o m (endState (pushAll vs m)) :=
  kept_onStack .operand (size_pushAll_le vs) m

theorem kept_peekOn (name : StackName) (depth : Nat) (m : Machine) :
    Kept o m (endState (peekOn name depth m)) := by
  unfold peekOn
  split <;> exact .refl o m

theorem kept_takeFrom (name : StackName) (m : Machine) :
    Kept o m (endState (takeFrom name m)) :=
  kept_onStack name size_pop_le m

theorem kept_exchange (r : Except Failure (List Exchange)) (m : Machine) :
    Kept o m (endState (exchange r m)) := by
  cases r with
  | ok xs => exact .of_host m m.input m.sink _
  | error f => exact .refl o m

theorem kept_write (s : String) (m : Machine) : Kept o m (endState (write s m)) :=
  (Kept.of_host m m.input _ m.exchanges).trans (kept_exchange _ _)

theorem kept_flush (m : Machine) : Kept o m (endState (flush m)) :=
  (Kept.of_host m m.input _ m.exchanges).trans (kept_exchange _ _)

theorem kept_prompt (s : String) (m : Machine) : Kept o m (endState (prompt s m)) := by
  unfold prompt
  simp only
  split <;> exact .of_host m m.input m.sink _

theorem kept_reading (reader : Input → Except Failure α × Input) (m : Machine) :
    Kept o m (endState (reading reader m)) := by
  unfold reading
  simp only
  split <;> exact .of_host m _ m.sink m.exchanges

theorem kept_computed (r : Except Mismatch Value) (m : Machine) :
    Kept o m (endState (computed r m)) := by
  cases r <;> exact .refl o m

theorem kept_literal (s : String) (m : Machine) : Kept o m (endState (literal s m)) := by
  unfold literal
  split <;> exact .refl o m

theorem Kept.of_calls {l : List LineNumber} (hb : m.Bounded → l.length ≤ Stack.capacity)
    (hl : ∀ line ∈ l, line ∈ m.calls.entries ∨
      (o = .gosub ∧ ∃ i, m.current = some i ∧ i.line = line))
    (hs : o ≠ .gosub → l <:+ m.calls.entries) : Kept o m (m.withCalls l) :=
  ⟨rfl, rfl, rfl, id, fun h => ⟨h.operands, h.registers, hb h⟩, .inl ⟨rfl, rfl, rfl⟩, hl, hs⟩

theorem kept_callLine (ho : o = .gosub) (m : Machine) : Kept o m (endState (callLine m)) := by
  cases hc : m.current with
  | none => rw [callLine_of_none hc]; exact .refl o m
  | some i =>
    by_cases h : m.calls.size < Stack.capacity
    · rw [callLine_of_lt hc h]
      have hpush : Kept o m (m.withCalls (i.line :: m.calls.entries)) := by
        refine .of_calls (fun _ => ?_) (List.forall_mem_cons.mpr ⟨?_, fun l hl => .inl hl⟩)
          fun hne => absurd ho hne
        · rw [List.length_cons, m.calls.size_eq]
          omega
        · exact .inr ⟨ho, i, hc, rfl⟩
      exact hpush.trans (kept_jump _)
    · rw [callLine_of_full hc (by omega)]
      exact .refl o m

theorem kept_returnToLine (m : Machine) : Kept o m (endState (returnToLine m)) := by
  cases hl : m.calls.entries with
  | nil => rw [returnToLine_of_nil hl]; exact .refl o m
  | cons line l =>
    rw [returnToLine_of_cons hl, endState_ok]
    have hpop : Kept o m (m.withCalls l) := by
      refine .of_calls (fun hb => ?_) (fun l' hl' => ?_) fun _ => hl ▸ List.suffix_cons line l
      · have hsize := m.calls.size_eq
        rw [hl, List.length_cons] at hsize
        have := hb.calls
        omega
      · exact .inl (hl ▸ List.mem_cons_of_mem _ hl')
    exact hpop.trans (kept_jumpToLine _ _)

/-- What all parts keep, everything put together from them keeps. -/
theorem Composed.kept {act : Act α} (h : Composed o act) (m : Machine) :
    Kept o m (endState (act m)) := by
  induction h generalizing m with
  | pure a => exact .refl o m
  | bind _ _ iha ihf => exact endState_bind (iha m) fun a m₁ h₁ => h₁.trans (ihf a m₁)
  | look hf ih => exact ih _ _ _ m
  | requireOn name n => exact kept_checkDepth _ _ _ m
  | pushOn name v => exact kept_pushOn name v m
  | pushAll vs => exact kept_pushAll vs m
  | peekOn name depth => exact kept_peekOn name depth m
  | takeFrom name => exact kept_takeFrom name m
  | write s => exact kept_write s m
  | flush => exact kept_flush m
  | prompt s => exact kept_prompt s m
  | reading reader => exact kept_reading reader m
  | computed r => exact kept_computed r m
  | literal s => exact kept_literal s m
  | unforeseen => exact .refl o m
  | jump => exact kept_jump m
  | call ho => exact kept_callLine ho m
  | ret => exact kept_returnToLine m
  | report => exact .note o m _
  | kill => exact kept_kill m

/-- **Frame of the operations.** -/
theorem kept_execute (o : Opcode) (m : Machine) : Kept o m (endState (execute o m)) :=
  (composed_execute o).kept m

theorem killed_jump (m : Machine) : m.jump.killed = m.killed := by
  obtain ⟨operands, pc, log, -, -, hj⟩ := jump_eq m
  rw [hj]

theorem killed_callLine (m : Machine) : (endState (callLine m)).killed = m.killed := by
  cases hc : m.current with
  | none =>
    rw [callLine_of_none hc]
    rfl
  | some i =>
    by_cases hroom : m.calls.size < Stack.capacity
    · rw [callLine_of_lt hc hroom]
      exact killed_jump _
    · rw [callLine_of_full hc (Nat.le_of_not_lt hroom)]
      rfl

theorem killed_returnToLine (m : Machine) : (endState (returnToLine m)).killed = m.killed := by
  cases hc : m.calls.entries with
  | nil =>
    rw [returnToLine_of_nil hc]
    rfl
  | cons line l =>
    obtain ⟨log, hj⟩ := jumpToLine_eq (m.withCalls l) (line.toNat + 1)
    rw [returnToLine_of_cons hc, endState_ok, hj]
    rfl

/-- Only `EXIT` stops the machine by itself. -/
theorem Composed.killed {act : Act α} (h : Composed o act) (ho : o ≠ .exit) (m : Machine) :
    (endState (act m)).killed = m.killed := by
  induction h using Composed.induct_plain generalizing m with
  | plain _ hplain =>
    obtain ⟨operands, registers, input, sink, exchanges, hm⟩ := hplain.frame m
    rw [hm]
  | bind _ _ iha ihf =>
    exact endState_bind (Q := fun m₁ => m₁.killed = m.killed) (iha m) fun a m₁ h₁ =>
      (ihf a m₁).trans h₁
  | look hf ih => exact ih _ _ _ m
  | check name n =>
    by_cases hn : n ≤ m.depth name
    · rw [requireOn_of_le hn]
      rfl
    · rw [requireOn_of_lt (Nat.not_le.mp hn)]
      rfl
  | jump _ => exact killed_jump m
  | call _ => exact killed_callLine m
  | ret _ => exact killed_returnToLine m
  | report => rfl
  | kill hexit => exact absurd hexit ho

/-- The pointer has not been set, and the machine not been stopped. -/
structure Unmoved (m₁ m₂ : Machine) : Prop where
  pc : m₂.pc = m₁.pc
  branched : m₂.branched = m₁.branched
  killed : m₂.killed = m₁.killed

theorem Unmoved.trans (h : Unmoved m₁ m₂) (h' : Unmoved m₂ m₃) : Unmoved m₁ m₃ :=
  ⟨h'.pc.trans h.pc, h'.branched.trans h.branched, h'.killed.trans h.killed⟩

/-- Only jumps, `RETURN` and `EXIT` set the pointer. -/
theorem Composed.unmoved {act : Act α} (h : Composed o act) (hjump : isJump o = false)
    (hret : o ≠ .ret) (hexit : o ≠ .exit) (m : Machine) : Unmoved m (endState (act m)) := by
  induction h using Composed.induct_plain generalizing m with
  | plain _ hplain =>
    obtain ⟨operands, registers, input, sink, exchanges, hm⟩ := hplain.frame m
    rw [hm]
    exact ⟨rfl, rfl, rfl⟩
  | bind _ _ iha ihf => exact endState_bind (iha m) fun a m₁ h₁ => h₁.trans (ihf a m₁)
  | look hf ih => exact ih _ _ _ m
  | check name n =>
    by_cases hn : n ≤ m.depth name
    · rw [requireOn_of_le hn]
      exact ⟨rfl, rfl, rfl⟩
    · rw [requireOn_of_lt (Nat.not_le.mp hn)]
      exact ⟨rfl, rfl, rfl⟩
  | jump ho => exact absurd ho (by simp [hjump])
  | call ho => exact absurd hjump (by simp [ho, isJump])
  | ret ho => exact absurd ho hret
  | report => exact ⟨rfl, rfl, rfl⟩
  | kill ho => exact absurd ho hexit

/-! ### The end of a step -/

theorem keepFault_eq (m : Machine) (i : Instruction) (e : Error) :
    ∃ log, m.keepFault i e = { m with faults := m.faults ++ [e], log := log } := by
  unfold keepFault
  by_cases h : e.kind = .stackUnderflow
  · exact ⟨m.log, by simp only [if_pos h]⟩
  · exact ⟨_, by simp only [if_neg h]; rfl⟩

/-- What becomes of a machine at the end of a step: it moves on, or keeps a fault and is stopped, or
is stopped and reports what failed. -/
inductive Concluded (i : Instruction) :
    EStateM.Result Error Machine Unit → EStateM.Result Error Machine Unit → Prop
  | moved (m : Machine) : Concluded i (.ok () m) (.ok () m.advance)
  | faulted {e : Error} (m : Machine) (log : Array Event) (he : e.isFault = true) :
      Concluded i (.error e m)
        (.ok () { m.kill with faults := m.faults ++ [e.inLine i.line], log := log })
  | reported {e : Error} (m : Machine) (he : e.isFault = false) :
      Concluded i (.error e m) (.error (e.inLine i.line) m.kill)

theorem conclude_of_fault (i : Instruction) (m : Machine) {e : Error} (he : e.isFault = true) :
    conclude i (.error e m) = .ok () (m.kill.keepFault i (e.inLine i.line)) := by
  have hsame : (e.inLine i.line).isFault = e.isFault := rfl
  unfold conclude
  simp only [hsame, he, if_true]

theorem conclude_of_not_fault (i : Instruction) (m : Machine) {e : Error} (he : e.isFault = false) :
    conclude i (.error e m) = .error (e.inLine i.line) m.kill := by
  have hsame : (e.inLine i.line).isFault = e.isFault := rfl
  unfold conclude
  simp only [hsame, he, Bool.false_eq_true, if_false]

theorem concluded (i : Instruction) (r : EStateM.Result Error Machine Unit) :
    Concluded i r (conclude i r) := by
  cases r with
  | ok _ m => exact .moved m
  | error e m =>
    cases he : e.isFault with
    | true =>
      obtain ⟨log, hlog⟩ := keepFault_eq m.kill i (e.inLine i.line)
      rw [conclude_of_fault i m he, hlog]
      exact .faulted m log he
    | false =>
      rw [conclude_of_not_fault i m he]
      exact .reported m he

theorem faults_advance (m : Machine) : m.advance.faults = m.faults := by
  unfold advance
  split <;> rfl

theorem executeInstruction_of_some {i : Instruction} {o : Opcode} (ho : i.opcode = some o) :
    executeInstruction i = execute o := by
  unfold executeInstruction
  rw [ho]

/-- The step of an operation that went well and did not set the pointer. -/
theorem step_of_unbranched {m m₁ : Machine} {i : Instruction} {o : Opcode}
    (hi : m.fetch? = some i) (ho : i.opcode = some o) (hr : execute o (m.begin i) = .ok () m₁)
    (hb : m₁.branched = false) (hk : m₁.killed = false) :
    step m = .ok () { m₁ with pc := m₁.pc + 1 } := by
  have hmoves : (m₁.branched || m₁.killed) = false := by rw [hb, hk]; rfl
  rw [step_of_fetch hi, executeInstruction_of_some ho, hr]
  unfold conclude advance
  simp only [hmoves, if_neg Bool.false_ne_true]

end Stackline.Machine
