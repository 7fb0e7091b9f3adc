import Stackline.Proofs.Machine.Frame

/-!
# Instructions without an operation

A machine that executes `program.known` goes abreast of one that executes the whole program: it
stands still while the other passes an instruction without an operation, and makes the same step
otherwise.  Inside a step the one is the `mirror` of the other, and every operation does the same on
both sides (`mirrored_execute`): what an operation reads of the program is only how many
instructions are before a line, and `Program.before_known` says how that changes.  Between steps
they are `Twin`s.  This gives a simulation, `twin_after`, and from it that their runs end alike.
-/

namespace Stackline.Machine

variable {α β : Type} {o : Opcode} {m m' m₁ : Machine}

/-! ### The same machine without the unknown instructions -/

/-- The machine at the same place of the program without the instructions that have no operation,
with events of its own. -/
def mirror (log : Array Event) (m : Machine) : Machine :=
  { m with
    program := m.program.known
    index := .ofProgram m.program.known
    index_eq := rfl
    pc := m.program.rank m.pc
    log }

/-- An act does the same on the mirror of a machine, events apart. -/
def Mirrored (act : Act α) : Prop :=
  ∀ m log, ∃ log', act (m.mirror log) = mapState (mirror log') (act m)

theorem mirrored_bind {act : Act α} {f : α → Act β} (ha : Mirrored act)
    (hf : ∀ a, Mirrored (f a)) : Mirrored (act >>= f) := by
  intro m log
  obtain ⟨log₁, h₁⟩ := ha m log
  cases hr : act m with
  | ok a m₁ =>
    rw [hr] at h₁
    obtain ⟨log₂, h₂⟩ := hf a m₁ log₁
    refine ⟨log₂, ?_⟩
    rw [bind_of_ok h₁, bind_of_ok hr, h₂]
  | error e m₁ =>
    rw [hr] at h₁
    refine ⟨log₁, ?_⟩
    rw [bind_of_error h₁, bind_of_error hr]
    rfl

theorem beside_mirror (log : Array Event) : Beside (mirror log) :=
  { stack := fun _ name => by cases name <;> rfl
    withStack := fun _ name _ => by cases name <;> rfl
    input := fun _ => rfl
    withInput := fun _ _ => rfl }

theorem Local.mirrored {act : Act α} (h : Local act) : Mirrored act :=
  fun m log => ⟨log, h _ (beside_mirror log) m⟩

theorem mirrored_checkDepth (stack : StackName) (actual expected : Nat) :
    Mirrored (checkDepth stack actual expected) := by
  intro m log
  unfold checkDepth
  by_cases h : expected ≤ actual
  · rw [if_pos h, if_pos h]
    exact ⟨log, rfl⟩
  · rw [if_neg h, if_neg h]
    exact ⟨_, rfl⟩

/-! ### Jumps -/

theorem kill_mirror (m : Machine) (log : Array Event) :
    (m.mirror log).kill = m.kill.mirror log := by
  unfold kill mirror
  rw [Program.rank_of_size_le (Nat.le_refl _)]

theorem jumpToEnd_mirror (m : Machine) (log : Array Event) :
    (m.mirror log).jumpToEnd = m.jumpToEnd.mirror log := by
  unfold jumpToEnd mirror
  rw [Program.rank_of_size_le (Nat.le_refl _)]

/-- A jump to a line that is left out goes to the one that took its place. -/
theorem jumpToLine_mirror (m : Machine) (log : Array Event) (target : Int) :
    ∃ log', (m.mirror log).jumpToLine target true = (m.jumpToLine target true).mirror log' := by
  obtain ⟨log₁, h₁⟩ := jumpToLine_eq (m.mirror log) target
  obtain ⟨log₂, h₂⟩ := jumpToLine_eq m target
  refine ⟨log₁, ?_⟩
  rw [h₁, h₂]
  unfold mirror
  rw [Program.before_known]

/-- Going to the end after noting why. -/
theorem noteEnd_mirror (m : Machine) (log : Array Event) (e : Event) :
    ∃ log', ((m.mirror log).note e).jumpToEnd = ((m.note e).jumpToEnd).mirror log' :=
  ⟨log.push e, jumpToEnd_mirror (m.note e) (log.push e)⟩

theorem jump_mirror (m : Machine) (log : Array Event) :
    ∃ log', (m.mirror log).jump = m.jump.mirror log' := by
  have ht : (m.mirror log).target? = m.target? := rfl
  unfold jump
  rw [ht]
  cases m.target? with
  | none => exact noteEnd_mirror m log _
  | some param =>
    simp only [(beside_mirror log).reference]
    obtain ⟨v, m₁⟩ := m.reference param
    cases v with
    | none => exact noteEnd_mirror m₁ log _
    | some v =>
      simp only
      cases v.toInteger? with
      | none => exact noteEnd_mirror m₁ log _
      | some n => exact jumpToLine_mirror m₁ log _

theorem mirrored_callLine : Mirrored callLine := by
  intro m log
  cases hc : m.current with
  | none =>
    refine ⟨log, ?_⟩
    rw [callLine_of_none hc, callLine_of_none (show (m.mirror log).current = none from hc)]
    rfl
  | some i =>
    have hc' : (m.mirror log).current = some i := hc
    by_cases h : m.calls.size < Stack.capacity
    · obtain ⟨log', hj⟩ := jump_mirror (m.withCalls (i.line :: m.calls.entries)) log
      refine ⟨log', ?_⟩
      rw [callLine_of_lt hc h, callLine_of_lt hc' h]
      exact congrArg (EStateM.Result.ok ()) hj
    · refine ⟨log, ?_⟩
      rw [Nat.not_lt] at h
      rw [callLine_of_full hc h, callLine_of_full hc' h]
      rfl

theorem mirrored_returnToLine : Mirrored returnToLine := by
  intro m log
  cases hl : m.calls.entries with
  | nil =>
    refine ⟨log, ?_⟩
    rw [returnToLine_of_nil hl, returnToLine_of_nil (show (m.mirror log).calls.entries = [] from hl)]
    rfl
  | cons line l =>
    have hl' : (m.mirror log).calls.entries = line :: l := hl
    obtain ⟨log', hj⟩ := jumpToLine_mirror (m.withCalls l) log (line.toNat + 1)
    refine ⟨log', ?_⟩
    rw [returnToLine_of_cons hl, returnToLine_of_cons hl']
    exact congrArg (EStateM.Result.ok ()) hj

/-! ### Operations -/

/-- What is put together from parts does the same on the mirror of a machine. Only jumps and stops
look at the program. -/
theorem Composed.mirrored {act : Act α} (h : Composed o act) : Mirrored act := by
  induction h with
  | pure a => exact (local_pure a).mirrored
  | bind ha hf iha ihf => exact mirrored_bind iha ihf
  | look hf ih => exact fun m log => ih m.current m.operands m.registers m log
  | requireOn name n =>
    intro m log
    have hsize : ((m.mirror log).stack name).size = (m.stack name).size := by cases name <;> rfl
    unfold Machine.requireOn
    rw [hsize]
    exact mirrored_checkDepth name _ n m log
  | pushOn name v => exact (local_onStack name _).mirrored
  | pushAll vs => exact (local_onStack .operand _).mirrored
  | peekOn name depth => exact (local_peekOn name depth).mirrored
  | takeFrom name => exact (local_onStack name _).mirrored
  | write s =>
    refine fun m log => ⟨log, ?_⟩
    simp only [Machine.write, exchange, mirror]
    cases (m.sink.write s).1 <;> rfl
  | flush =>
    refine fun m log => ⟨log, ?_⟩
    simp only [Machine.flush, exchange, mirror]
    cases m.sink.flush.1 <;> rfl
  | prompt s =>
    refine fun m log => ⟨log, ?_⟩
    simp only [Machine.prompt, mirror]
    cases (m.input.prompt s).2 <;> rfl
  | reading reader => exact (local_reading reader).mirrored
  | computed r => exact (local_computed r).mirrored
  | literal s => exact (local_literal s).mirrored
  | unforeseen => exact local_unforeseen.mirrored
  | jump =>
    intro m log
    obtain ⟨log', h⟩ := jump_mirror m log
    exact ⟨log', congrArg (EStateM.Result.ok ()) h⟩
  | call ho => exact mirrored_callLine
  | ret => exact mirrored_returnToLine
  | report => exact fun m log => ⟨_, rfl⟩
  | kill => exact fun m log => ⟨log, congrArg (EStateM.Result.ok ()) (kill_mirror m log)⟩

theorem mirrored_execute (o : Opcode) : Mirrored (execute o) := (composed_execute o).mirrored

/-! ### Steps -/

/-- Two machines of which the second executes the program of the first without the instructions
that have no operation, at the corresponding place and with the same stacks, host and faults.
Nothing is said of the instruction executed last and of events, and nothing of `branched`, which
each step sets anew. -/
structure Twin (m m' : Machine) : Prop where
  program : m'.program = m.program.known
  pc : m'.pc = m.program.rank m.pc
  killed : m'.killed = m.killed
  operands : m'.operands = m.operands
  registers : m'.registers = m.registers
  calls : m'.calls = m.calls
  input : m'.input = m.input
  sink : m'.sink = m.sink
  exchanges : m'.exchanges = m.exchanges
  faults : m'.faults = m.faults

theorem twin_mirror (m : Machine) (log : Array Event) : Twin m (m.mirror log) :=
  ⟨rfl, rfl, rfl, rfl, rfl, rfl, rfl, rfl, rfl, rfl⟩

theorem twin_start (p : Program) (source : Source) (sink : Sink) :
    Twin (start p source sink) (start p.known source sink) :=
  ⟨rfl, by simp [start, Program.rank], rfl, rfl, rfl, rfl, rfl, rfl, rfl, rfl⟩

/-- Twins that begin the same instruction are mirrors of each other. -/
theorem Twin.begin (h : Twin m m') (i : Instruction) :
    ∃ log, m'.begin i = (m.begin i).mirror log := by
  obtain ⟨program, index, hindex, pc, branched, killed, current, operands, registers, calls, input,
    sink, exchanges, faults, log⟩ := m'
  obtain ⟨hprogram, hpc, hkilled, hoperands, hregisters, hcalls, hinput, hsink, hexchanges,
    hfaults⟩ := h
  simp only at hprogram hpc hkilled hoperands hregisters hcalls hinput hsink hexchanges hfaults
  subst hprogram hindex hpc hkilled hoperands hregisters hcalls hinput hsink hexchanges hfaults
  exact ⟨_, rfl⟩

/-- Two results with twins for their machines. -/
inductive Matching : EStateM.Result Error Machine Unit → EStateM.Result Error Machine Unit → Prop
  | ok {m m' : Machine} (h : Twin m m') : Matching (.ok () m) (.ok () m')
  | error {m m' : Machine} (e : Error) (h : Twin m m') : Matching (.error e m) (.error e m')

theorem Matching.twin {r r' : EStateM.Result Error Machine Unit} (h : Matching r r') :
    Twin (endState r) (endState r') := by
  cases h with
  | ok h => exact h
  | error e h => exact h

/-- What follows an instruction keeps machines twins, if moving on past it moves both on. -/
theorem matching_conclude (i : Instruction) (log : Array Event)
    {r : EStateM.Result Error Machine Unit}
    (h : ∀ m₁, r = .ok () m₁ → m₁.branched = false → m₁.killed = false →
      m₁.program.rank (m₁.pc + 1) = m₁.program.rank m₁.pc + 1) :
    Matching (conclude i r) (conclude i (mapState (mirror log) r)) := by
  cases r with
  | ok _ m₁ =>
    refine .ok ?_
    have hset : ((m₁.mirror log).branched || (m₁.mirror log).killed) =
      (m₁.branched || m₁.killed) := rfl
    unfold advance
    rw [hset]
    by_cases hb : (m₁.branched || m₁.killed) = true
    · rw [if_pos hb, if_pos hb]
      exact twin_mirror m₁ log
    · rw [if_neg hb, if_neg hb]
      rw [Bool.not_eq_true, Bool.or_eq_false_iff] at hb
      exact { twin_mirror m₁ log with pc := (h m₁ rfl hb.1 hb.2).symm }
  | error e m₁ =>
    have h₁ := concluded i (.error e m₁)
    have h₂ := concluded i (.error e (m₁.mirror log))
    show Matching (conclude i (.error e m₁)) (conclude i (.error e (m₁.mirror log)))
    generalize conclude i (.error e m₁) = r₁ at h₁ ⊢
    generalize conclude i (.error e (m₁.mirror log)) = r₂ at h₂ ⊢
    cases h₁ with
    | faulted _ log₁ he =>
      cases h₂ with
      | faulted _ log₂ _ =>
        rw [kill_mirror]
        exact .ok { twin_mirror m₁.kill log with faults := rfl }
      | reported _ he' => rw [he] at he'; cases he'
    | reported _ he =>
      cases h₂ with
      | faulted _ log₂ he' => rw [he] at he'; cases he'
      | reported _ _ =>
        rw [kill_mirror]
        exact .error _ (twin_mirror m₁.kill log)

theorem Twin.stopped (h : Twin m m') (hm : m.isRunning = false) : m'.isRunning = false := by
  rw [← Bool.not_eq_true, isRunning_iff] at hm ⊢
  rintro ⟨hk, hpc⟩
  rw [h.killed] at hk
  have hle : m.program.size ≤ m.pc := by
    rw [← Nat.not_lt]
    exact fun hlt => hm ⟨hk, hlt⟩
  rw [h.pc, h.program, Program.rank_of_size_le hle] at hpc
  exact Nat.lt_irrefl _ hpc

theorem Twin.fetch {i : Instruction} (h : Twin m m') (hi : m.fetch? = some i)
    (ho : i.opcode.isSome = true) : m'.fetch? = some i := by
  obtain ⟨hrun, hget⟩ := fetch?_eq_some_iff.mp hi
  have hget' : m'.program.get? m'.pc = some i := by
    rw [h.program, h.pc]
    exact Program.get?_known hget ho
  have hk' : m'.killed = false := h.killed.trans (isRunning_iff.mp hrun).1
  exact fetch?_eq_some_iff.mpr ⟨isRunning_iff.mpr ⟨hk', Program.lt_of_get? hget'⟩, hget'⟩

theorem Twin.isRunning {i : Instruction} (h : Twin m m') (hi : m.fetch? = some i)
    (ho : i.opcode = some o) : m'.isRunning = true :=
  (fetch?_eq_some_iff.mp (h.fetch hi (by rw [ho]; rfl))).1

/-- Twins execute an instruction with an operation alike. -/
theorem Twin.step_known {i : Instruction} (h : Twin m m') (hi : m.fetch? = some i)
    (ho : i.opcode = some o) : Matching (step m) (step m') := by
  have hi' := h.fetch hi (by rw [ho]; rfl)
  obtain ⟨log, hbegin⟩ := h.begin i
  obtain ⟨log', hexec⟩ := mirrored_execute o (m.begin i) log
  have hkept := kept_execute o (m.begin i)
  rw [step_of_fetch hi, step_of_fetch hi', executeInstruction_of_some ho, hbegin, hexec]
  refine matching_conclude i log' fun m₁ hr hb hk => ?_
  rw [hr] at hkept
  -- an operation that neither branched nor stopped left the pointer alone
  have hpc : m₁.pc = m.pc := by
    rcases hkept.pointer with ⟨hpc, -⟩ | ⟨hb' | hk', -⟩
    · exact hpc
    · rw [endState_ok, hb] at hb'
      cases hb'
    · rw [endState_ok, hk] at hk'
      cases hk'
  have hprog : m₁.program = m.program := hkept.program
  have hrank := Program.rank_succ (fetch?_eq_some_iff.mp hi).2
  rw [hprog, hpc, hrank, ho]
  rfl

/-- A machine passes an instruction without an operation while its twin stands still. -/
theorem Twin.step_unknown {i : Instruction} (h : Twin m m') (hi : m.fetch? = some i)
    (ho : i.opcode = none) :
    ∃ m₁, step m = .ok () m₁ ∧ Twin m₁ m' ∧ m₁.program = m.program ∧ m₁.pc = m.pc + 1 := by
  obtain ⟨hrun, hget⟩ := fetch?_eq_some_iff.mp hi
  have hk : m.killed = false := (isRunning_iff.mp hrun).1
  have hrank := Program.rank_succ hget
  rw [ho] at hrank
  have hexec : executeInstruction i (m.begin i) =
      .ok () ((m.begin i).note (.unimplemented i.line i.mnemonic)) := by
    unfold executeInstruction
    rw [ho]
    rfl
  refine ⟨((m.begin i).note (.unimplemented i.line i.mnemonic)).advance, ?_, ?_⟩
  · rw [step_of_fetch hi, hexec]
    rfl
  · have hset : (((m.begin i).note (.unimplemented i.line i.mnemonic)).branched ||
        ((m.begin i).note (.unimplemented i.line i.mnemonic)).killed) = false := hk
    unfold advance
    rw [if_neg (Bool.eq_false_iff.mp hset)]
    exact ⟨{ h with pc := h.pc.trans hrank.symm }, rfl, rfl⟩

/-! ### Runs -/

/-- **Stuttering simulation.** The twin makes the steps that execute an operation. -/
theorem twin_after (h : Twin m m') (n : Nat) : ∃ k ≤ n, Twin (after n m) (after k m') := by
  induction n generalizing m m' with
  | zero => exact ⟨0, Nat.le_refl 0, h⟩
  | succ n ih =>
    cases hm : m.isRunning with
    | false =>
      obtain ⟨k, hk, htwin⟩ := ih h
      refine ⟨k, Nat.le_succ_of_le hk, ?_⟩
      rw [after, step_of_stopped hm]
      exact htwin
    | true =>
      obtain ⟨i, hi⟩ := exists_fetch hm
      cases ho : i.opcode with
      | none =>
        obtain ⟨m₁, hs, h₁, -⟩ := h.step_unknown hi ho
        obtain ⟨k, hk, htwin⟩ := ih h₁
        refine ⟨k, Nat.le_succ_of_le hk, ?_⟩
        rw [after, hs]
        exact htwin
      | some o =>
        obtain ⟨k, hk, htwin⟩ := ih (h.step_known hi ho).twin
        exact ⟨k + 1, Nat.succ_le_succ hk, htwin⟩

theorem Twin.flush (h : Twin m m') : Matching (flush m) (flush m') := by
  unfold Machine.flush exchange
  rw [h.sink]
  simp only
  cases m.sink.flush.1 with
  | ok xs => exact .ok { h with sink := rfl, exchanges := by simp only [h.exchanges] }
  | error f => exact .error _ { h with sink := rfl }

theorem Twin.endRun (h : Twin m m') : Matching (endRun m) (endRun m') := by
  have hflush := h.flush
  unfold Machine.endRun
  generalize hr : Machine.flush m = r at hflush
  generalize hr' : Machine.flush m' = r' at hflush
  cases hflush with
  | ok h₁ =>
    rw [bind_of_ok hr, bind_of_ok hr']
    exact .ok { h₁ with }
  | error e h₁ =>
    rw [bind_of_error hr, bind_of_error hr']
    exact .error e h₁

/-- If a machine halts, so does its twin, and alike. -/
theorem Twin.halts (h : Twin m m') {r : EStateM.Result Error Machine Unit} (hr : Halts m r) :
    ∃ r', Halts m' r' ∧ Matching r r' := by
  induction hr using Halts.induct generalizing m' with
  | stopped m hm => exact ⟨_, halts_of_stopped (h.stopped hm), h.endRun⟩
  | moved m r _ hm hok herr =>
    obtain ⟨i, hi⟩ := exists_fetch hm
    cases ho : i.opcode with
    | none =>
      obtain ⟨m₁, hs, h₁, -⟩ := h.step_unknown hi ho
      obtain ⟨-, ih⟩ := hok m₁ hs
      exact ih h₁
    | some o =>
      have hm' := h.isRunning hi ho
      have hstep := h.step_known hi ho
      generalize hs : step m = s at hstep
      generalize hs' : step m' = s' at hstep
      cases hstep with
      | ok h₁ =>
        obtain ⟨-, ih⟩ := hok _ hs
        obtain ⟨r', hr', hmatch⟩ := ih h₁
        exact ⟨r', (halts_step_ok hm' hs').mpr hr', hmatch⟩
      | error e h₁ =>
        obtain rfl := herr _ _ hs
        exact ⟨_, halts_step_error hm' hs', .error e h₁⟩

/-- A machine passes the instructions without an operation in front of it. -/
theorem Twin.settle (h : Twin m m') : ∃ m₁, Twin m₁ m' ∧ (∀ r, Halts m₁ r → Halts m r) ∧
    (m₁.isRunning = false ∨ ∃ i o, m₁.fetch? = some i ∧ i.opcode = some o) := by
  generalize hd : m.program.size - m.pc = d
  induction d generalizing m with
  | zero =>
    have hm : m.isRunning = false := by
      rw [← Bool.not_eq_true, isRunning_iff]
      omega
    exact ⟨m, h, fun _ => id, .inl hm⟩
  | succ d ih =>
    cases hm : m.isRunning with
    | false => exact ⟨m, h, fun _ => id, .inl hm⟩
    | true =>
      obtain ⟨i, hi⟩ := exists_fetch hm
      cases ho : i.opcode with
      | some o => exact ⟨m, h, fun _ => id, .inr ⟨i, o, hi, ho⟩⟩
      | none =>
        obtain ⟨m₁, hs, h₁, hprog, hpc⟩ := h.step_unknown hi ho
        obtain ⟨m₂, h₂, hhalts, hsettled⟩ := ih h₁ (by rw [hprog, hpc]; omega)
        exact ⟨m₂, h₂, fun r hr => (halts_step_ok hm hs).mpr (hhalts r hr), hsettled⟩

/-- If the twin of a machine halts, so does the machine, and alike. -/
theorem Twin.halts_of_halts (h : Twin m m') {r' : EStateM.Result Error Machine Unit}
    (hr' : Halts m' r') : ∃ r, Halts m r ∧ Matching r r' := by
  induction hr' using Halts.induct generalizing m with
  | stopped m' hm' =>
    obtain ⟨m₁, h₁, hback, hm | ⟨i, o, hi, ho⟩⟩ := h.settle
    · exact ⟨_, hback _ (halts_of_stopped hm), h₁.endRun⟩
    · rw [h₁.isRunning hi ho] at hm'
      cases hm'
  | moved m' r' _ hm' hok herr =>
    obtain ⟨m₁, h₁, hback, hm | ⟨i, o, hi, ho⟩⟩ := h.settle
    · rw [h₁.stopped hm] at hm'
      cases hm'
    · have hm := (fetch?_eq_some_iff.mp hi).1
      have hstep := h₁.step_known hi ho
      generalize hs : step m₁ = s at hstep
      generalize hs' : step m' = s' at hstep
      cases hstep with
      | ok h₂ =>
        obtain ⟨-, ih⟩ := hok _ hs'
        obtain ⟨r, hr, hmatch⟩ := ih h₂
        exact ⟨r, hback r ((halts_step_ok hm hs).mpr hr), hmatch⟩
      | error e h₂ =>
        obtain rfl := herr _ _ hs'
        exact ⟨_, hback _ (halts_step_error hm hs), .error e h₂⟩

/-- **Instructions without an operation cannot be seen.** A run of a program ends if and only if the
run of the program without them ends, with the same result and with twins, and after any number of
steps of the one there is a twin after no more steps of the other. -/
theorem known_simulates (p : Program) (source : Source) (sink : Sink) :
    ((∃ r, Halts (start p source sink) r) ↔ ∃ r', Halts (start p.known source sink) r') ∧
    (∀ r r', Halts (start p source sink) r → Halts (start p.known source sink) r' →
      Matching r r') ∧
    ∀ n, ∃ k ≤ n, Twin (after n (start p source sink)) (after k (start p.known source sink)) := by
  have h := twin_start p source sink
  refine ⟨⟨?_, ?_⟩, ?_, twin_after h⟩
  · rintro ⟨r, hr⟩
    obtain ⟨r', hr', -⟩ := h.halts hr
    exact ⟨r', hr'⟩
  · rintro ⟨r', hr'⟩
    obtain ⟨r, hr, -⟩ := h.halts_of_halts hr'
    exact ⟨r, hr⟩
  · intro r r' hr hr'
    obtain ⟨r'', hr'', hmatch⟩ := h.halts hr
    rw [hr'.unique hr'']
    exact hmatch

end Stackline.Machine
