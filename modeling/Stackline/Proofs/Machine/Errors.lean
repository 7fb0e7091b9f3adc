import Stackline.Proofs.Machine.Frame

/-!
# The errors of operations

An operation that looks at an entry has checked that it is there, so it never meets a stack that is
too short after its own check, nor anything else that it cannot foresee.  `Proper i e` says that `e`
is one of the errors that an instruction `i` may meet, and that it names no other line than that of
`i`. `Meets i Q r` says of a result that it is a success with `Q` or a proper error.  There is one
rule for each part of an operation, and `settles_execute` puts them together for all of them.
-/

namespace Stackline

/-- The causes that operations give to their errors.  The others are those of a stack that is used
without a check, of what checks should have ruled out, and of a host. -/
def Cause.Foreseen : Cause → Prop
  | .short .. | .internal | .reported .. => False
  | _ => True

/-- An error that an instruction may meet: foreseen, and in no other line. -/
structure Error.Proper (i : Instruction) (e : Error) : Prop where
  foreseen : e.cause.Foreseen
  line : e.line = none ∨ e.line = some i.line

namespace Error

variable {i : Instruction} {e : Error}

/-- An error without a line, from a foreseen cause. -/
theorem proper_of_cause {c : Cause} (h : c.Foreseen) : Proper i { cause := c } := ⟨h, .inl rfl⟩

/-- At the end of the step the error has the line of the instruction. -/
theorem Proper.line_inLine (h : Proper i e) : (e.inLine i.line).line = some i.line := by
  unfold inLine
  rcases h.line with hl | hl <;> rw [hl] <;> rfl

/-- What is foreseen and no fault is a text that is no literal, or the host's failure. -/
theorem Proper.kind_of_not_fault (h : Proper i e) (hf : e.isFault = false) :
    e.kind = .syntaxError ∨ e.kind = .ioError := by
  obtain ⟨c, l⟩ := e
  have hc : c.Foreseen := h.foreseen
  have hk : c.kind.isFault = false := hf
  show c.kind = .syntaxError ∨ c.kind = .ioError
  cases c with
  | literal f => exact .inl rfl
  | io s => exact .inr rfl
  | mismatch | underflow | overflow | noCall => cases hk
  | short | internal | reported => exact hc.elim

end Error

namespace Machine

variable {α β : Type} {i : Instruction} {m m' : Machine} {Q : α → Machine → Prop}

/-- The result is a success with `Q` or an error that `i` may meet. -/
def Meets (i : Instruction) (Q : α → Machine → Prop) : EStateM.Result Error Machine α → Prop
  | .ok a m => Q a m
  | .error e _ => e.Proper i

/-! ### One rule for each part -/

theorem meets_bind {act : Act α} {f : α → Act β} {Q : β → Machine → Prop}
    (h : Meets i (fun a m₁ => Meets i Q (f a m₁)) (act m)) : Meets i Q ((act >>= f) m) := by
  cases hr : act m with
  | ok a m₁ =>
    rw [hr] at h
    rw [bind_of_ok hr]
    exact h
  | error e m₁ =>
    rw [hr] at h
    rw [bind_of_error hr]
    exact h

theorem proper_shortage (hc : m.current = some i) (stack : StackName) (actual expected : Nat) :
    (m.shortage stack actual expected).Proper i := by
  refine ⟨trivial, .inr ?_⟩
  show some m.blamed.2 = some i.line
  unfold blamed
  rw [hc]

theorem meets_requireOn {name : StackName} {n : Nat} {Q : Unit → Machine → Prop}
    (hc : m.current = some i) (h : n ≤ (m.stack name).size → Q () m) :
    Meets i Q (requireOn name n m) := by
  by_cases hn : n ≤ (m.stack name).size
  · rw [requireOn_of_le hn]
    exact h hn
  · rw [requireOn_of_lt (by omega)]
    exact proper_shortage hc _ _ _

theorem meets_peekOn {name : StackName} {n : Nat} {Q : Value → Machine → Prop} (h₀ : 0 < n)
    (hn : n ≤ (m.stack name).size) (h : ∀ v, Q v m) : Meets i Q (peekOn name n m) := by
  have hlt : n - 1 < (m.stack name).entries.length := by
    rw [(m.stack name).size_eq]
    omega
  rw [peekOn_of_getElem? h₀ (List.getElem?_eq_getElem hlt)]
  exact h _

theorem meets_takeFrom {name : StackName} {Q : Value → Machine → Prop}
    (hn : 1 ≤ (m.stack name).size)
    (h : ∀ v m', (m'.stack name).size + 1 = (m.stack name).size → Q v m') :
    Meets i Q (takeFrom name m) := by
  obtain ⟨a, l, hl⟩ := Stack.exists_cons_of_size hn
  rw [takeFrom_of_cons hl]
  refine h a _ ?_
  rw [← (m.stack name).size_eq, hl, stack_withStack]
  rfl

theorem meets_pushOn {name : StackName} {Q : Unit → Machine → Prop} (v : Value)
    (h : ∀ m', (∀ name' ≠ name, m'.stack name' = m.stack name') → Q () m') :
    Meets i Q (pushOn name v m) := by
  by_cases hroom : (m.stack name).size < Stack.capacity
  · rw [pushOn_of_lt v hroom]
    exact h _ fun name' hne => stack_withStack_of_ne hne m _
  · rw [pushOn_of_full v (by omega)]
    exact Error.proper_of_cause trivial

theorem meets_pushAll {Q : Unit → Machine → Prop} (vs : List Value) (h : ∀ m', Q () m') :
    Meets i Q (pushAll vs m) := by
  by_cases hroom : m.operands.size + vs.length ≤ Stack.capacity
  · rw [pushAll_of_le hroom]
    exact h _
  · rw [pushAll_of_full (by omega)]
    exact Error.proper_of_cause trivial

theorem meets_computed {Q : Value → Machine → Prop} (r : Except Mismatch Value)
    (h : ∀ v, Q v m) : Meets i Q (computed r m) := by
  cases r with
  | ok v => exact h v
  | error e => exact Error.proper_of_cause trivial

theorem meets_literal {Q : Value → Machine → Prop} (s : String) (h : ∀ v, Q v m) :
    Meets i Q (literal s m) := by
  cases hs : Literal.read s with
  | ok v =>
    rw [literal_of_ok hs]
    exact h v
  | error e =>
    rw [literal_of_error hs]
    exact Error.proper_of_cause trivial

theorem meets_exchange {Q : Unit → Machine → Prop} (r : Except Failure (List Exchange))
    (h : ∀ m', Q () m') : Meets i Q (exchange r m) := by
  cases r with
  | ok xs => exact h _
  | error f => exact Error.proper_of_cause trivial

theorem meets_prompt {Q : Unit → Machine → Prop} (s : String) (h : ∀ m', Q () m') :
    Meets i Q (prompt s m) := by
  unfold prompt
  simp only
  split
  · exact h _
  · exact Error.proper_of_cause trivial

theorem meets_reading (reader : Input → Except Failure α × Input) (h : ∀ a m', Q a m') :
    Meets i Q (reading reader m) := by
  unfold reading
  simp only
  split
  · exact h _ _
  · exact Error.proper_of_cause trivial

/-! ### The operations -/

/-- Nothing more is said of a success. -/
def Settles (i : Instruction) (r : EStateM.Result Error Machine Unit) : Prop :=
  Meets i (fun _ _ => True) r

section Operations

variable (hc : m.current = some i)
include hc

theorem settles_pop {f : Value → Act Unit} (h : ∀ v m', Settles i (f v m')) :
    Settles i ((pop >>= f) m) := by
  refine meets_bind (meets_bind (meets_requireOn hc fun hn => ?_))
  exact meets_takeFrom hn fun v m' _ => h v m'

theorem settles_unary (op : UnaryOp) : Settles i (unary op m) := by
  refine meets_bind (meets_requireOn hc fun hn => ?_)
  refine meets_bind (meets_peekOn (by decide) hn fun v => ?_)
  refine meets_bind (meets_computed _ fun r => ?_)
  refine meets_bind (meets_takeFrom hn fun _ m' _ => ?_)
  exact meets_pushOn r fun _ _ => trivial

theorem settles_binary (op : BinaryOp) : Settles i (binary op m) := by
  refine meets_bind (meets_requireOn hc fun hn => ?_)
  refine meets_bind (meets_peekOn (by decide) hn fun l => ?_)
  refine meets_bind (meets_peekOn (by decide) (by omega) fun r => ?_)
  refine meets_bind (meets_computed _ fun v => ?_)
  refine meets_bind (meets_takeFrom (by omega) fun _ m₁ h₁ => ?_)
  refine meets_bind (meets_takeFrom (by omega) fun _ m₂ _ => ?_)
  exact meets_pushOn v fun _ _ => trivial

theorem settles_divideBoth : Settles i (divideBoth m) := by
  refine meets_bind (meets_requireOn hc fun hn => ?_)
  refine meets_bind (meets_peekOn (by decide) hn fun l => ?_)
  refine meets_bind (meets_peekOn (by decide) (by omega) fun r => ?_)
  refine meets_bind (meets_computed _ fun q => ?_)
  refine meets_bind (meets_computed _ fun rest => ?_)
  refine meets_bind (meets_takeFrom (by omega) fun _ m₁ h₁ => ?_)
  refine meets_bind (meets_takeFrom (by omega) fun _ m₂ _ => ?_)
  refine meets_bind (meets_pushOn q fun m₃ _ => ?_)
  exact meets_pushOn rest fun _ _ => trivial

theorem settles_jumpIf (test : Float → Bool) : Settles i (jumpIf test m) :=
  meets_bind (meets_requireOn hc fun _ => trivial)

theorem settles_jumpIfNull : Settles i (jumpIfNull m) := by
  refine meets_bind (meets_requireOn hc fun hn => ?_)
  refine meets_bind (meets_peekOn (by decide) hn fun v => ?_)
  split
  · exact meets_bind (meets_takeFrom hn fun _ _ _ => trivial)
  · trivial

theorem settles_callLine : Settles i (callLine m) := by
  by_cases hroom : m.calls.size < Stack.capacity
  · rw [callLine_of_lt hc hroom]
    trivial
  · rw [callLine_of_full hc (by omega)]
    exact Error.proper_of_cause trivial

omit hc in
theorem settles_returnToLine : Settles i (returnToLine m) := by
  cases hl : m.calls.entries with
  | nil =>
    rw [returnToLine_of_nil hl]
    exact Error.proper_of_cause trivial
  | cons line l =>
    rw [returnToLine_of_cons hl]
    trivial

omit hc in
theorem meets_literals (ps : List String) {Q : List Value → Machine → Prop} (h : ∀ vs, Q vs m) :
    Meets i Q (literals ps m) := by
  induction ps generalizing Q with
  | nil => exact h []
  | cons p ps ih =>
    refine meets_bind (meets_literal p fun v => ?_)
    exact meets_bind (ih fun vs => h (v :: vs))

theorem settles_pushParams : Settles i (pushParams m) := by
  rw [pushParams_of_some hc]
  refine meets_bind (meets_literals i.params fun vs => ?_)
  exact meets_pushAll vs fun _ => trivial

theorem settles_inputLiteral : Settles i (inputLiteral m) := by
  refine settles_pop hc fun v m₁ => ?_
  refine meets_bind (meets_exchange _ fun m₂ => ?_)
  refine meets_bind (meets_prompt _ fun m₃ => ?_)
  refine meets_bind (meets_reading _ fun line m₄ => ?_)
  cases line with
  | none => exact meets_pushOn _ fun _ _ => trivial
  | some line =>
    refine meets_bind (meets_literal line fun r => ?_)
    exact meets_pushOn r fun _ _ => trivial

omit hc in
theorem settles_inputText (reader : Input → Except Failure (Option String) × Input) :
    Settles i (inputText reader m) := by
  refine meets_bind (meets_exchange _ fun m₁ => ?_)
  refine meets_bind (meets_reading _ fun s m₂ => ?_)
  cases s with
  | none => exact meets_pushOn _ fun _ _ => trivial
  | some s => exact meets_pushOn _ fun _ _ => trivial

theorem settles_rotate : Settles i (rotate m) := by
  refine meets_bind (meets_requireOn hc fun hn => ?_)
  refine meets_bind (meets_takeFrom (by omega) fun c m₁ h₁ => ?_)
  refine meets_bind (meets_takeFrom (by omega) fun b m₂ h₂ => ?_)
  refine meets_bind (meets_takeFrom (by omega) fun a m₃ _ => ?_)
  refine meets_bind (meets_pushOn b fun m₄ _ => ?_)
  refine meets_bind (meets_pushOn c fun m₅ _ => ?_)
  exact meets_pushOn a fun _ _ => trivial

theorem settles_swap : Settles i (swap m) := by
  refine meets_bind (meets_requireOn hc fun hn => ?_)
  refine meets_bind (meets_takeFrom (by omega) fun b m₁ h₁ => ?_)
  refine meets_bind (meets_takeFrom (by omega) fun a m₂ _ => ?_)
  refine meets_bind (meets_pushOn b fun m₃ _ => ?_)
  exact meets_pushOn a fun _ _ => trivial

theorem settles_copy {depth : Nat} (h₀ : 0 < depth) : Settles i (copy depth m) := by
  refine meets_bind (meets_requireOn hc fun hn => ?_)
  refine meets_bind (meets_peekOn h₀ hn fun v => ?_)
  exact meets_pushOn v fun _ _ => trivial

theorem settles_move {source target : StackName} (hne : source ≠ target) :
    Settles i (move source target m) := by
  refine meets_bind (meets_requireOn hc fun hn => ?_)
  refine meets_bind (meets_peekOn (by decide) hn fun v => ?_)
  refine meets_bind (meets_pushOn v fun m₁ h₁ => ?_)
  have hsource : 1 ≤ (m₁.stack source).size := by rwa [h₁ source hne]
  exact meets_bind (meets_takeFrom hsource fun _ _ _ => trivial)

theorem settles_printLine : Settles i (printLine m) :=
  settles_pop hc fun _ _ => meets_exchange _ fun _ => trivial

/-- **Every operation meets only errors of its own.** -/
theorem settles_execute (o : Opcode) : Settles i (execute o m) := by
  cases o with
  | push => exact settles_pushParams hc
  | input => exact settles_inputLiteral hc
  | getc | getl | getw => exact settles_inputText _
  | rot => exact settles_rotate hc
  | dup | copyOver => exact settles_copy hc (by decide)
  | pop => exact settles_pop hc fun _ _ => trivial
  | swap => exact settles_swap hc
  | yeet | yoink => exact settles_move hc (by decide)
  | size | rsize => exact meets_pushOn _ fun _ _ => trivial
  | goto | debug | exit => trivial
  | jp | jnp | jn | jnn | jz => exact settles_jumpIf hc _
  | jnl => exact settles_jumpIfNull hc
  | gosub => exact settles_callLine hc
  | ret => exact settles_returnToLine
  | inc | dec | makei | makef | makes | ord | chr => exact settles_unary hc _
  | add | sub | mul | div | mod | eq | less | more | lesseq | moreeq => exact settles_binary hc _
  | divmod => exact settles_divideBoth hc
  | print => exact settles_printLine hc

end Operations

/-! ### Steps -/

/-- An error in the line of an instruction has stopped the machine at the end of its program. -/
structure StoppedBy (i : Instruction) (e : Error) (m : Machine) : Prop where
  line : e.line = some i.line
  killed : m.killed = true
  pc : m.pc = m.program.size

/-- What an instruction meets, with or without an operation, and what it keeps. -/
theorem executeInstruction_settles (i : Instruction) (m : Machine) :
    Settles i (executeInstruction i (m.begin i)) ∧
      (endState (executeInstruction i (m.begin i))).faults = m.faults ∧
      (endState (executeInstruction i (m.begin i))).program = m.program := by
  cases ho : i.opcode with
  | none =>
    unfold executeInstruction
    rw [ho]
    exact ⟨trivial, rfl, rfl⟩
  | some o =>
    have hk := kept_execute o (m.begin i)
    rw [executeInstruction_of_some ho]
    exact ⟨settles_execute rfl o, hk.faults, hk.program⟩

/-- An error that a step returns is no literal or a failure of the host, and the faults that it adds
are faults; each has the line of the instruction, and has stopped the machine. -/
theorem step_stoppedBy (hi : m.fetch? = some i) :
    (endState (step m)).program = m.program ∧
    (∀ e m', step m = .error e m' →
      (e.kind = .syntaxError ∨ e.kind = .ioError) ∧ StoppedBy i e m' ∧ m'.faults = m.faults) ∧
    (∀ m', step m = .ok () m' → m'.faults = m.faults ∨
      ∃ e, m'.faults = m.faults ++ [e] ∧ e.isFault = true ∧ e.cause.Foreseen ∧
        StoppedBy i e m') := by
  obtain ⟨hset, hf, hp⟩ := executeInstruction_settles i m
  rw [step_of_fetch hi]
  have hcon := concluded i (executeInstruction i (m.begin i))
  generalize conclude i (executeInstruction i (m.begin i)) = r' at hcon ⊢
  generalize executeInstruction i (m.begin i) = r at hset hf hp hcon
  cases hcon with
  | moved m₁ =>
    have hadv : m₁.advance.program = m₁.program := by
      unfold advance
      split <;> rfl
    refine ⟨hadv.trans hp, fun e m' h => (by cases h), fun m' h => .inl ?_⟩
    cases h
    exact (faults_advance m₁).trans hf
  | @faulted e m₁ log he =>
    have hproper : e.Proper i := hset
    refine ⟨hp, fun e m' h => (by cases h), fun m' h => .inr ?_⟩
    cases h
    have hfaults : m₁.faults = m.faults := hf
    exact ⟨_, congrArg (· ++ _) hfaults, he, hproper.foreseen, hproper.line_inLine, rfl, rfl⟩
  | @reported e m₁ he =>
    have hproper : e.Proper i := hset
    refine ⟨hp, fun e' m' h => ?_, fun m' h => (by cases h)⟩
    cases h
    exact ⟨hproper.kind_of_not_fault he, ⟨hproper.line_inLine, rfl, rfl⟩, hf⟩

end Machine

end Stackline
