import Stackline.Proofs.Machine.Frame

/-!
# Faults leave nothing half done

A step that keeps a fault has not changed the stacks, and nothing was written (`step_fault_atomic`).
Every operation first looks at what it needs (`Looks`), and from the first change on it cannot
fail with a fault any more; `Careful` says how such an operation may end.  The operations that push
what they read are the exception: the input is gone when there turns out to be no room.
-/

namespace Stackline.Machine

variable {α β : Type} {o : Opcode} {m m₁ m₂ m' : Machine} {act : Act α} {f : α → Act β}

/-- The stacks hold what they held. -/
structure SameStacks (m m' : Machine) : Prop where
  operands : m'.operands = m.operands
  registers : m'.registers = m.registers
  calls : m'.calls = m.calls

/-- Beside the stacks, what was written and what is to be read are the same. -/
structure Untouched (m m' : Machine) : Prop extends SameStacks m m' where
  written : m'.written = m.written
  input : m'.input = m.input

theorem SameStacks.refl (m : Machine) : SameStacks m m := ⟨rfl, rfl, rfl⟩

theorem SameStacks.trans (h : SameStacks m m₁) (h' : SameStacks m₁ m₂) : SameStacks m m₂ :=
  ⟨h'.operands.trans h.operands, h'.registers.trans h.registers, h'.calls.trans h.calls⟩

theorem Untouched.refl (m : Machine) : Untouched m m := ⟨.refl m, rfl, rfl⟩

theorem Untouched.note (m : Machine) (e : Event) : Untouched m (m.note e) :=
  ⟨⟨rfl, rfl, rfl⟩, rfl, rfl⟩

/-- The operations that push what they read as a text. -/
def PushesInput (o : Opcode) : Prop := o = .getc ∨ o = .getl ∨ o = .getw

/-- How an operation begun in `m` may end: well; with an error found before anything was changed;
with an error that is no fault; or without room for what it read. -/
inductive Careful (o : Opcode) (m : Machine) : EStateM.Result Error Machine Unit → Prop
  | done (m' : Machine) : Careful o m (.ok () m')
  | refused {e : Error} {m' : Machine} (h : Untouched m m') : Careful o m (.error e m')
  | reported {e : Error} {m' : Machine} (h : e.isFault = false) : Careful o m (.error e m')
  | unpushed {e : Error} {m' : Machine} (ho : PushesInput o) (he : e.kind = .stackOverflow)
      (hs : SameStacks m m') (hw : m'.written = m.written) : Careful o m (.error e m')

/-! ### Parts that look -/

/-- An act that leaves the machine alone.  Its failure may be noted. -/
structure Looks (act : Act α) : Prop where
  ok : ∀ {m a m'}, act m = .ok a m' → m' = m
  error : ∀ {m e m'}, act m = .error e m' → Untouched m m'

theorem looks_checkDepth (stack : StackName) (actual expected : Machine → Nat) :
    Looks fun m => checkDepth stack (actual m) (expected m) m := by
  constructor
  · intro m a m' h
    unfold checkDepth at h
    split at h
    · cases h; rfl
    · cases h
  · intro m e m' h
    unfold checkDepth at h
    split at h
    · cases h
    · cases h; exact .note m _

theorem looks_requireOn (name : StackName) (n : Nat) : Looks (requireOn name n) :=
  looks_checkDepth name (fun m => (m.stack name).size) fun _ => n

theorem looks_require (n : Nat) : Looks (require n) := looks_requireOn .operand n

theorem Looks.of_unchanged (h : ∀ m, endState (act m) = m) : Looks act := by
  constructor
  · intro m a m' hr
    have := h m
    rwa [hr] at this
  · intro m e m' hr
    have := h m
    rw [hr] at this
    obtain rfl : m' = m := this
    exact .refl _

theorem looks_peekOn (name : StackName) (depth : Nat) : Looks (peekOn name depth) :=
  .of_unchanged fun m => by unfold peekOn; split <;> rfl

theorem looks_peek (depth : Nat) : Looks (peek depth) := looks_peekOn .operand depth

theorem looks_computed (r : Except Mismatch Value) : Looks (computed r) :=
  .of_unchanged fun m => by cases r <;> rfl

theorem looks_literal (s : String) : Looks (literal s) :=
  .of_unchanged fun m => by unfold literal; split <;> rfl

theorem looks_pure (a : α) : Looks (pure a : Act α) := .of_unchanged fun _ => rfl

theorem Looks.bind (ha : Looks act) (hf : ∀ a, Looks (f a)) : Looks (act >>= f) := by
  constructor
  · intro m b m' h
    cases hr : act m with
    | ok a m₁ =>
      rw [bind_of_ok hr] at h
      obtain rfl := ha.ok hr
      exact (hf a).ok h
    | error e m₁ => rw [bind_of_error hr] at h; cases h
  · intro m e m' h
    cases hr : act m with
    | ok a m₁ =>
      rw [bind_of_ok hr] at h
      obtain rfl := ha.ok hr
      exact (hf a).error h
    | error e₁ m₁ =>
      rw [bind_of_error hr] at h
      cases h
      exact ha.error hr

theorem looks_literals (ps : List String) : Looks (literals ps) := by
  induction ps with
  | nil => exact looks_pure []
  | cons p ps ih =>
    exact (looks_literal p).bind fun v => ih.bind fun vs => looks_pure (v :: vs)

/-- An operation that begins by looking is as careful as what it does then. -/
theorem Looks.careful_bind {f : α → Act Unit} (ha : Looks act)
    (h : ∀ a, act m = .ok a m → Careful o m (f a m)) : Careful o m ((act >>= f) m) := by
  cases hr : act m with
  | ok a m₁ =>
    rw [bind_of_ok hr]
    obtain rfl := ha.ok hr
    exact h a hr
  | error e m₁ =>
    rw [bind_of_error hr]
    exact .refused (ha.error hr)

theorem le_of_requireOn {name : StackName} {n : Nat} {u : Unit}
    (h : requireOn name n m = .ok u m') : n ≤ (m.stack name).size := by
  by_cases hn : n ≤ (m.stack name).size
  · exact hn
  · rw [requireOn_of_lt (by omega)] at h; cases h

theorem le_of_require {n : Nat} {u : Unit} (h : require n m = .ok u m') : n ≤ m.operands.size :=
  le_of_requireOn h

/-! ### Parts that talk to the host -/

theorem join_append_silent (l : List String) :
    ∀ l' : List String, (∀ s ∈ l', s = "") → String.join (l ++ l') = String.join l := by
  intro l'
  induction l' generalizing l with
  | nil => intro _; rw [List.append_nil]
  | cons s l' ih =>
    intro h
    obtain rfl : s = "" := h s List.mem_cons_self
    have hl : l ++ "" :: l' = (l ++ [""]) ++ l' := by simp
    rw [hl, ih (l ++ [""]) fun t ht => h t (List.mem_cons_of_mem _ ht)]
    simp [String.join]

/-- Exchanges that are no output leave the text written as it is. -/
theorem written_of_silent {xs : List Exchange} (hx : ∀ x ∈ xs, x.output = "")
    (he : m'.exchanges = m.exchanges ++ xs.toArray) : m'.written = m.written := by
  unfold written
  rw [he, Array.toList_append, List.map_append]
  refine join_append_silent _ _ fun s hs => ?_
  obtain ⟨x, hxs, rfl⟩ := List.mem_map.mp hs
  exact hx x hxs

/-- An act that leaves the stacks and the text written alone, and whose failures are no faults. -/
structure Talks (act : Act α) : Prop where
  ok : ∀ {m a m'}, act m = .ok a m' → SameStacks m m' ∧ m'.written = m.written
  error : ∀ {m e m'}, act m = .error e m' → e.isFault = false

theorem flush_silent {s : Sink} {xs : List Exchange} (h : s.flush.1 = .ok xs) :
    ∀ x ∈ xs, x.output = "" := by
  unfold Sink.flush at h
  split at h
  · cases h; simp
  · cases h; simp
  · simp only at h
    split at h
    · cases h
    · cases h; simp [Exchange.output]

theorem talks_flush : Talks flush := by
  constructor
  · intro m a m' h
    unfold flush exchange at h
    simp only at h
    split at h
    · next hx =>
      cases h
      exact ⟨⟨rfl, rfl, rfl⟩, written_of_silent (flush_silent hx) rfl⟩
    · cases h
  · intro m e m' h
    unfold flush exchange at h
    simp only at h
    split at h
    · cases h
    · cases h; rfl

theorem talks_prompt (s : String) : Talks (prompt s) := by
  constructor
  · intro m a m' h
    have hm : SameStacks m m' ∧ m'.exchanges = m.exchanges ++ (m.input.prompt s).1.toArray := by
      unfold prompt at h
      simp only at h
      split at h
      · cases h; exact ⟨⟨rfl, rfl, rfl⟩, rfl⟩
      · cases h
    refine ⟨hm.1, written_of_silent ?_ hm.2⟩
    unfold Input.prompt
    split <;> simp [Exchange.output]
  · intro m e m' h
    unfold prompt at h
    simp only at h
    split at h
    · cases h
    · cases h; rfl

theorem talks_reading (reader : Input → Except Failure α × Input) : Talks (reading reader) := by
  constructor
  · intro m a m' h
    unfold reading at h
    simp only at h
    split at h
    · cases h; exact ⟨⟨rfl, rfl, rfl⟩, rfl⟩
    · cases h
  · intro m e m' h
    unfold reading at h
    simp only at h
    split at h
    · cases h
    · cases h; rfl

/-- An operation that goes on by talking to the host is as careful as what it does then. -/
theorem Talks.careful_bind {f : α → Act Unit} (ha : Talks act)
    (h : ∀ a m₂, SameStacks m₁ m₂ → m₂.written = m₁.written → Careful o m (f a m₂)) :
    Careful o m ((act >>= f) m₁) := by
  cases hr : act m₁ with
  | ok a m₂ =>
    rw [bind_of_ok hr]
    obtain ⟨hs, hw⟩ := ha.ok hr
    exact h a m₂ hs hw
  | error e m₂ =>
    rw [bind_of_error hr]
    exact .reported (ha.error hr)

/-! ### The operations -/

/-- An operation that begins by taking off an operand is as careful as what it does then. -/
theorem careful_pop_bind {f : Value → Act Unit}
    (h : ∀ v l, m.operands.entries = v :: l → Careful o m (f v (m.withOperands l))) :
    Careful o m ((pop >>= f) m) := by
  by_cases h1 : 1 ≤ m.operands.size
  · obtain ⟨v, l, hl⟩ := Stack.exists_cons_of_size h1
    rw [bind_of_ok (pop_of_cons hl)]
    exact h v l hl
  · rw [bind_of_error (pop_of_lt (by omega))]
    exact .refused (.note m _)

section Operations

variable (hb : m.Bounded)
include hb

theorem length_le_of_bounded {l : List Value} (hl : m.operands.entries = l) :
    l.length ≤ Stack.capacity := by
  rw [← hl, m.operands.size_eq]
  exact hb.operands

theorem careful_unary (op : UnaryOp) : Careful o m (unary op m) := by
  refine (looks_require 1).careful_bind fun _ h1 => (looks_peek 1).careful_bind fun v _ =>
    (looks_computed _).careful_bind fun r _ => ?_
  obtain ⟨a, l, hl⟩ := Stack.exists_cons_of_size (le_of_require h1)
  have hroom : l.length < Stack.capacity := length_le_of_bounded hb hl
  rw [bind_of_ok (take_of_cons hl), push_of_lt r hroom]
  exact .done _

theorem careful_binary (op : BinaryOp) : Careful o m (binary op m) := by
  refine (looks_require 2).careful_bind fun _ h2 => (looks_peek 2).careful_bind fun _ _ =>
    (looks_peek 1).careful_bind fun _ _ => (looks_computed _).careful_bind fun r _ => ?_
  obtain ⟨b, a, l, hl⟩ := Stack.exists_cons₂_of_size (le_of_require h2)
  have hroom : l.length + 1 < Stack.capacity := length_le_of_bounded hb hl
  have hroom' : l.length < Stack.capacity := by omega
  rw [bind_of_ok (take_of_cons hl), bind_of_ok (take_of_cons rfl), push_of_lt r hroom']
  exact .done _

/-- Two values fit where two were taken off. -/
theorem take_take_push_push {b a : Value} {l : List Value} (hl : m.operands.entries = b :: a :: l)
    (x y : Value → Value → Value) :
    (do let b ← take; let a ← take; push (x a b); push (y a b) : Act Unit) m =
      .ok () (m.withOperands (y a b :: x a b :: l)) := by
  have hroom : l.length + 1 < Stack.capacity := length_le_of_bounded hb hl
  have hroom' : l.length < Stack.capacity := by omega
  rw [bind_of_ok (take_of_cons hl), bind_of_ok (take_of_cons rfl),
    bind_of_ok (push_of_lt _ hroom'), push_of_lt _ hroom]
  rfl

theorem careful_divideBoth : Careful o m (divideBoth m) := by
  -- both results are there before the first operand is taken off
  refine (looks_require 2).careful_bind fun _ h2 => (looks_peek 2).careful_bind fun _ _ =>
    (looks_peek 1).careful_bind fun _ _ => (looks_computed _).careful_bind fun q _ =>
      (looks_computed _).careful_bind fun r _ => ?_
  obtain ⟨b, a, l, hl⟩ := Stack.exists_cons₂_of_size (le_of_require h2)
  rw [take_take_push_push hb hl (fun _ _ => q) (fun _ _ => r)]
  exact .done _

theorem careful_swap : Careful o m (swap m) := by
  refine (looks_require 2).careful_bind fun _ h2 => ?_
  obtain ⟨b, a, l, hl⟩ := Stack.exists_cons₂_of_size (le_of_require h2)
  rw [take_take_push_push hb hl (fun _ b => b) (fun a _ => a)]
  exact .done _

theorem careful_rotate : Careful o m (rotate m) := by
  refine (looks_require 3).careful_bind fun _ h3 => ?_
  obtain ⟨c, b, a, l, hl⟩ := Stack.exists_cons₃_of_size (le_of_require h3)
  have hroom : l.length + 2 < Stack.capacity := length_le_of_bounded hb hl
  have hroom₁ : l.length + 1 < Stack.capacity := by omega
  have hroom₀ : l.length < Stack.capacity := by omega
  rw [bind_of_ok (take_of_cons hl), bind_of_ok (take_of_cons rfl), bind_of_ok (take_of_cons rfl),
    bind_of_ok (push_of_lt b hroom₀), bind_of_ok (push_of_lt c hroom₁), push_of_lt a hroom]
  exact .done _

theorem careful_inputLiteral : Careful o m (inputLiteral m) := by
  refine careful_pop_bind fun v l hl => ?_
  have hroom : l.length < Stack.capacity := length_le_of_bounded hb hl
  -- taking off the prompt has made room for what is read
  have hpush : ∀ (r : Value) (m₂ : Machine),
      SameStacks (m.withOperands l) m₂ → Careful o m (push r m₂) := by
    intro r m₂ hs
    rw [push_of_lt r (by rw [hs.operands]; exact hroom)]
    exact .done _
  refine talks_flush.careful_bind fun _ m₂ h₂ _ => (talks_prompt _).careful_bind fun _ m₃ h₃ _ =>
    (talks_reading _).careful_bind fun line m₄ h₄ _ => ?_
  have hs := (h₂.trans h₃).trans h₄
  cases line with
  | none => exact hpush .null m₄ hs
  | some line =>
    show Careful o m ((literal line >>= push) m₄)
    cases hread : Literal.read line with
    | ok r =>
      rw [bind_of_ok (literal_of_ok hread m₄)]
      exact hpush r m₄ hs
    | error e =>
      rw [bind_of_error (literal_of_error hread m₄)]
      exact .reported rfl

end Operations

theorem careful_push (v : Value) : Careful o m (push v m) := by
  by_cases h : m.operands.size < Stack.capacity
  · rw [push_of_lt v h]; exact .done _
  · rw [push_of_full v (by omega)]; exact .refused (.refl m)

theorem careful_copy (depth : Nat) : Careful o m (copy depth m) :=
  (looks_require depth).careful_bind fun _ _ => (looks_peek depth).careful_bind fun v _ =>
    careful_push v

theorem careful_move {source target : StackName} (hne : source ≠ target) :
    Careful o m (move source target m) := by
  refine (looks_requireOn source 1).careful_bind fun _ h1 =>
    (looks_peekOn source 1).careful_bind fun v _ => ?_
  obtain ⟨a, l, hl⟩ := Stack.exists_cons_of_size (le_of_requireOn h1)
  by_cases h : (m.stack target).size < Stack.capacity
  · rw [← stack_withStack_of_ne hne] at hl
    rw [bind_of_ok (pushOn_of_lt v h), bind_of_ok (takeFrom_of_cons hl)]
    exact .done _
  · rw [bind_of_error (pushOn_of_full v (by omega))]
    exact .refused (.refl m)

theorem careful_jumpIfNull : Careful o m (jumpIfNull m) := by
  refine (looks_require 1).careful_bind fun _ h1 => (looks_peek 1).careful_bind fun v _ => ?_
  obtain ⟨a, l, hl⟩ := Stack.exists_cons_of_size (le_of_require h1)
  split
  · rw [bind_of_ok (take_of_cons hl)]
    exact .done _
  · exact .done _

theorem careful_callLine : Careful o m (callLine m) := by
  cases hc : m.current with
  | none => rw [callLine_of_none hc]; exact .refused (.refl m)
  | some i =>
    by_cases h : m.calls.size < Stack.capacity
    · rw [callLine_of_lt hc h]; exact .done _
    · rw [callLine_of_full hc (by omega)]; exact .refused (.refl m)

theorem careful_returnToLine : Careful o m (returnToLine m) := by
  cases hl : m.calls.entries with
  | nil => rw [returnToLine_of_nil hl]; exact .refused (.refl m)
  | cons line l => rw [returnToLine_of_cons hl]; exact .done _

theorem careful_printLine : Careful o m (printLine m) := by
  refine careful_pop_bind fun v l _ => ?_
  unfold write exchange
  simp only
  split
  · exact .done _
  · exact .reported rfl

/-- A push of values that were looked up fails only for want of room. -/
theorem pushParams_error {e : Error} (h : pushParams m = .error e m') : Untouched m m' := by
  cases hc : m.current with
  | none => rw [pushParams_eq] at h; simp only [hc] at h; cases h; exact .refl m
  | some i =>
    rw [pushParams_of_some hc] at h
    cases hr : literals i.params m with
    | error e₁ m₁ =>
      rw [bind_of_error hr] at h
      cases h
      exact (looks_literals _).error hr
    | ok vs m₁ =>
      rw [bind_of_ok hr] at h
      obtain rfl := (looks_literals _).ok hr
      by_cases hroom : m₁.operands.size + vs.length ≤ Stack.capacity
      · rw [pushAll_of_le hroom] at h; cases h
      · rw [pushAll_of_full (by omega)] at h; cases h; exact .refl _

theorem careful_pushParams : Careful o m (pushParams m) := by
  cases hr : pushParams m with
  | ok u m' => exact .done m'
  | error e m' => exact .refused (pushParams_error hr)

theorem careful_inputText (ho : PushesInput o)
    (reader : Input → Except Failure (Option String) × Input) : Careful o m (inputText reader m) := by
  refine talks_flush.careful_bind fun _ m₁ h₁ hw₁ =>
    (talks_reading _).careful_bind fun s m₂ h₂ hw₂ => ?_
  have hpush : ∀ v : Value, Careful o m (push v m₂) := by
    intro v
    by_cases h : m₂.operands.size < Stack.capacity
    · rw [push_of_lt v h]; exact .done _
    · rw [push_of_full v (by omega)]
      exact .unpushed ho rfl (h₁.trans h₂) (hw₂.trans hw₁)
  cases s with
  | none => exact hpush .null
  | some s => exact hpush (.text s)

/-- **Every operation is careful** on a machine whose stacks are within their bounds. -/
theorem careful_execute (hb : m.Bounded) (o : Opcode) : Careful o m (execute o m) := by
  cases o with
  | push => exact careful_pushParams
  | input => exact careful_inputLiteral hb
  | getc => exact careful_inputText (.inl rfl) _
  | getl => exact careful_inputText (.inr (.inl rfl)) _
  | getw => exact careful_inputText (.inr (.inr rfl)) _
  | rot => exact careful_rotate hb
  | dup | copyOver => exact careful_copy _
  | pop => exact careful_pop_bind fun _ _ _ => .done _
  | swap => exact careful_swap hb
  | yeet | yoink => exact careful_move (by decide)
  | size | rsize => exact careful_push _
  | goto | debug | exit => exact .done _
  | jp | jnp | jn | jnn | jz => exact (looks_require 1).careful_bind fun _ _ => .done _
  | jnl => exact careful_jumpIfNull
  | gosub => exact careful_callLine
  | ret => exact careful_returnToLine
  | inc | dec | makei | makef | makes | ord | chr => exact careful_unary hb _
  | add | sub | mul | div | mod | eq | less | more | lesseq | moreeq => exact careful_binary hb _
  | divmod => exact careful_divideBoth hb
  | print => exact careful_printLine

/-! ### Literals -/

/-- One text that is no literal is enough. -/
theorem literals_error {ps : List String} {p : String} {e : Literal.Fault} (hp : p ∈ ps)
    (h : Literal.read p = .error e) (m : Machine) :
    ∃ e', literals ps m = .error e' m ∧ e'.kind = .syntaxError := by
  induction ps with
  | nil => cases hp
  | cons q ps ih =>
    unfold literals
    cases hq : Literal.read q with
    | error e₁ => exact ⟨_, bind_of_error (literal_of_error hq m), rfl⟩
    | ok v =>
      have hp' : p ∈ ps := by
        rcases List.mem_cons.mp hp with rfl | hp
        · rw [h] at hq; cases hq
        · exact hp
      obtain ⟨e', he', hk⟩ := ih hp'
      exact ⟨e', (bind_of_ok (literal_of_ok hq m)).trans (bind_of_error he'), hk⟩

theorem literals_ok {ps : List String} (h : ∀ p ∈ ps, ∃ v, Literal.read p = .ok v) (m : Machine) :
    ∃ vs, literals ps m = .ok vs m ∧ ps.map Literal.read = vs.map .ok := by
  induction ps with
  | nil => exact ⟨[], rfl, rfl⟩
  | cons q ps ih =>
    obtain ⟨v, hv⟩ := h q List.mem_cons_self
    obtain ⟨vs, hvs, hread⟩ := ih fun p hp => h p (List.mem_cons_of_mem _ hp)
    refine ⟨v :: vs, (bind_of_ok (literal_of_ok hv m)).trans ((bind_of_ok hvs).trans rfl), ?_⟩
    rw [List.map_cons, List.map_cons, hv, hread]

/-! ### Steps -/

/-- A step that keeps a fault is one whose operation failed with a fault. -/
theorem execute_error_of_faults {i : Instruction} (hi : m.fetch? = some i)
    (hf : (endState (step m)).faults ≠ m.faults) :
    ∃ o e m', i.opcode = some o ∧ execute o (m.begin i) = .error e m' ∧ e.isFault = true := by
  rw [step_of_fetch hi] at hf
  cases ho : i.opcode with
  | none =>
    refine absurd ?_ hf
    unfold executeInstruction
    rw [ho]
    exact faults_advance _
  | some o =>
    rw [executeInstruction_of_some ho] at hf
    have hk := (kept_execute o (m.begin i)).faults
    have hc := concluded i (execute o (m.begin i))
    generalize hr : execute o (m.begin i) = r at hf hk hc
    generalize conclude i r = r' at hf hc
    cases hc with
    | moved m' => exact absurd ((faults_advance m').trans hk) hf
    | faulted m' log he => exact ⟨o, _, m', rfl, hr, he⟩
    | reported m' he => exact absurd hk hf

/-- The step of an operation that failed with a fault. -/
theorem step_of_fault {i : Instruction} {e : Error} (hi : m.fetch? = some i)
    (ho : i.opcode = some o) (hr : execute o (m.begin i) = .error e m₁) (he : e.isFault = true) :
    ∃ m', step m = .ok () m' ∧ m'.faults = m.faults ++ [e.inLine i.line] ∧ SameStacks m₁ m' ∧
      m'.written = m₁.written ∧ m'.input = m₁.input ∧ m'.killed = true ∧
      m'.pc = m.program.size := by
  have hk := kept_execute o (m.begin i)
  have hc := concluded i (execute o (m.begin i))
  rw [step_of_fetch hi, executeInstruction_of_some ho]
  generalize conclude i (execute o (m.begin i)) = r' at hc ⊢
  rw [hr] at hk hc
  have hpc : m₁.program.size = m.program.size := congrArg Program.size hk.program
  have hfaults : m₁.faults = m.faults := hk.faults
  cases hc with
  | faulted m₁ log _ =>
    exact ⟨_, rfl, congrArg (· ++ _) hfaults, ⟨rfl, rfl, rfl⟩, rfl, rfl, rfl, hpc⟩
  | reported m₁ he' => rw [he] at he'; cases he'

theorem step_of_faults {i : Instruction} (hb : m.Bounded) (hi : m.fetch? = some i)
    (hf : (endState (step m)).faults ≠ m.faults) :
    ∃ e m', step m = .ok () m' ∧ e.isFault = true ∧ m'.faults = m.faults ++ [e] ∧
      SameStacks m m' ∧ m'.written = m.written ∧
      (m'.input = m.input ∨ ∃ o, i.opcode = some o ∧ PushesInput o ∧ e.kind = .stackOverflow) ∧
      m'.killed = true ∧ m'.pc = m.program.size := by
  have hbegin : SameStacks m (m.begin i) := ⟨rfl, rfl, rfl⟩
  obtain ⟨o, e, m₁, ho, hr, he⟩ := execute_error_of_faults hi hf
  obtain ⟨m', hstep, hfaults, hs, hw, hin, hk, hpc⟩ := step_of_fault hi ho hr he
  have hb' : (m.begin i).Bounded := ⟨hb.operands, hb.registers, hb.calls⟩
  have hcareful := careful_execute hb' o
  rw [hr] at hcareful
  cases hcareful with
  | refused h =>
    exact ⟨e.inLine i.line, m', hstep, he, hfaults, hbegin.trans (h.toSameStacks.trans hs),
      hw.trans h.written, .inl (hin.trans h.input), hk, hpc⟩
  | reported h => rw [he] at h; cases h
  | unpushed hpush hov hs₁ hw₁ =>
    exact ⟨e.inLine i.line, m', hstep, he, hfaults, hbegin.trans (hs₁.trans hs), hw.trans hw₁,
      .inr ⟨o, ho, hpush, hov⟩, hk, hpc⟩

/-! ### Pushing parameters -/

theorem step_push_of_malformed {i : Instruction} (hi : m.fetch? = some i)
    (ho : i.opcode = some .push) {p : String} {e : Literal.Fault} (hp : p ∈ i.params)
    (he : Literal.read p = .error e) :
    ∃ e m', step m = .error e m' ∧ e.kind = .syntaxError ∧ SameStacks m m' := by
  have hcur : (m.begin i).current = some i := rfl
  obtain ⟨e', hlit, hkind⟩ := literals_error hp he (m.begin i)
  have hr : execute .push (m.begin i) = .error e' (m.begin i) :=
    (pushParams_of_some hcur).trans (bind_of_error hlit)
  have hfault : e'.isFault = false := by
    unfold Error.isFault
    rw [hkind]
    rfl
  have hc := concluded i (execute .push (m.begin i))
  rw [step_of_fetch hi, executeInstruction_of_some ho]
  generalize conclude i (execute .push (m.begin i)) = r' at hc ⊢
  rw [hr] at hc
  cases hc with
  | faulted _ log he' => rw [hfault] at he'; cases he'
  | reported _ _ => exact ⟨_, _, rfl, hkind, ⟨rfl, rfl, rfl⟩⟩

theorem step_push_of_full {i : Instruction} (hi : m.fetch? = some i)
    (ho : i.opcode = some .push) (hall : ∀ p ∈ i.params, ∃ v, Literal.read p = .ok v)
    (hfull : Stack.capacity < m.operands.size + i.params.length) :
    ∃ e m', step m = .ok () m' ∧ m'.faults = m.faults ++ [e] ∧ e.kind = .stackOverflow ∧
      SameStacks m m' := by
  have hcur : (m.begin i).current = some i := rfl
  have hbegin : SameStacks m (m.begin i) := ⟨rfl, rfl, rfl⟩
  obtain ⟨vs, hvs, hread⟩ := literals_ok hall (m.begin i)
  have hlen : vs.length = i.params.length := by simpa using (congrArg List.length hread).symm
  have hr : execute .push (m.begin i) = .error { cause := .overflow operandsFull } (m.begin i) :=
    (pushParams_of_some hcur).trans
      ((bind_of_ok hvs).trans (pushAll_of_full (by rw [hlen]; exact hfull)))
  obtain ⟨m', hstep, hfaults, hs, -⟩ := step_of_fault hi ho hr rfl
  exact ⟨_, m', hstep, hfaults, rfl, hbegin.trans hs⟩

theorem sameStacks_of_step_push {i : Instruction} (hi : m.fetch? = some i)
    (ho : i.opcode = some .push) {e : Error} (hstep : step m = .error e m') : SameStacks m m' := by
  rw [step_of_fetch hi, executeInstruction_of_some ho] at hstep
  have hc := concluded i (execute .push (m.begin i))
  rw [hstep] at hc
  generalize hr : execute .push (m.begin i) = r at hc
  cases hc with
  | reported m₁ he =>
    have hs := (pushParams_error hr).toSameStacks
    exact ⟨hs.operands, hs.registers, hs.calls⟩

/-- **A fault leaves nothing half done.**  If a step keeps a fault, it has added that one fault and
stopped the machine, and the stacks, the text written and the input are as before; only an
operation that pushes what it read may have used up input, if there was no room.  A `PUSH` that
fails, for want of room or because a parameter is no literal, leaves the stacks as they were. -/
theorem step_fault_atomic {m : Machine} {i : Instruction} (hb : m.Bounded)
    (hi : m.fetch? = some i) :
    ((endState (step m)).faults ≠ m.faults →
      ∃ e m', step m = .ok () m' ∧ e.isFault = true ∧ m'.faults = m.faults ++ [e] ∧
        SameStacks m m' ∧ m'.written = m.written ∧
        (m'.input = m.input ∨
          ∃ o, i.opcode = some o ∧ PushesInput o ∧ e.kind = .stackOverflow) ∧
        m'.killed = true ∧ m'.pc = m.program.size) ∧
    (i.opcode = some .push →
      ((∃ p ∈ i.params, ∃ e, Literal.read p = .error e) →
        ∃ e m', step m = .error e m' ∧ e.kind = .syntaxError ∧ SameStacks m m') ∧
      ((∀ p ∈ i.params, ∃ v, Literal.read p = .ok v) →
        Stack.capacity < m.operands.size + i.params.length →
        ∃ e m', step m = .ok () m' ∧ m'.faults = m.faults ++ [e] ∧ e.kind = .stackOverflow ∧
          SameStacks m m') ∧
      ∀ e m', step m = .error e m' → SameStacks m m') := by
  refine ⟨step_of_faults hb hi, fun ho => ⟨?_, ?_, ?_⟩⟩
  · rintro ⟨p, hp, e, he⟩
    exact step_push_of_malformed hi ho hp he
  · exact step_push_of_full hi ho
  · exact fun e m' hstep => sameStacks_of_step_push hi ho hstep

/-- Copy the newest operand. -/
def dupLine : Instruction := .ofMnemonic 10 "DUP" []

/-- A machine about to copy the newest operand of a full stack. -/
def fullDup : Machine :=
  { start (.ofInstructions [dupLine]) (.ofText "x") .capture with
    operands := .ofEntries (List.replicate Stack.capacity .null) }

theorem size_fullDup : fullDup.operands.size = Stack.capacity := List.length_replicate

/-- The copy passes its checks and fails at the push. -/
theorem execute_fullDup : execute .dup (fullDup.begin dupLine) =
    .error { cause := .overflow operandsFull } (fullDup.begin dupLine) := by
  have hsize : (fullDup.begin dupLine).operands.size = Stack.capacity := size_fullDup
  have hpeek : peek 1 (fullDup.begin dupLine) = .ok .null (fullDup.begin dupLine) := rfl
  have hroom : 1 ≤ (fullDup.begin dupLine).operands.size := by rw [hsize]; decide
  exact (bind_of_ok (require_of_le hroom)).trans
    ((bind_of_ok hpeek).trans (push_of_full _ (Nat.le_of_eq hsize.symm)))

/-- A copy for which there is no room is a fault, and the full stack stays as it is. -/
theorem step_fault_atomic_fullDup : ∃ e m', step fullDup = .ok () m' ∧ m'.faults = [e] ∧
    SameStacks fullDup m' ∧ m'.killed = true := by
  have hb : fullDup.Bounded := ⟨Nat.le_of_eq size_fullDup, Nat.zero_le _, Nat.zero_le _⟩
  have hi : fullDup.fetch? = some dupLine := rfl
  obtain ⟨m₁, hstep, hfaults, -⟩ := step_of_fault hi rfl execute_fullDup rfl
  have hne : (endState (step fullDup)).faults ≠ fullDup.faults := by
    rw [hstep, endState_ok, hfaults]
    simp
  obtain ⟨e, m', h, -, hf, hs, -, -, hk, -⟩ := (step_fault_atomic hb hi).1 hne
  exact ⟨e, m', h, hf, hs, hk⟩

end Stackline.Machine
