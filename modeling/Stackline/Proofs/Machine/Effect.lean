import Stackline.Proofs.Machine.Act

/-!
# What operations make of their operands

An operation on the stacks of values takes some operands and has an `Effect`, which depends on them
alone: other values take their place, one of them is copied, stored away or printed, or a value
comes from the registers.  `Means` is the table of these effects, with operands and results in the
order in which they are written, the oldest first.  `execute_of_means` says that executing an
operation brings about its effect, whatever lies below the operands, and `perform_cases` how an
effect moves the stacks.
-/

namespace Stackline

/-- The operation of the machine that carries out an operation on one value. -/
def UnaryOp.opcode : UnaryOp → Opcode
  | .increment => .inc
  | .decrement => .dec
  | .makeInt => .makei
  | .makeFloat => .makef
  | .makeString => .makes
  | .ord => .ord
  | .chr => .chr

/-- The operation of the machine that carries out an operation on two values. -/
def BinaryOp.opcode : BinaryOp → Opcode
  | .add => .add
  | .subtract => .sub
  | .multiply => .mul
  | .divide => .div
  | .modulus => .mod
  | .equal => .eq
  | .less => .less
  | .more => .more
  | .lessEqual => .lesseq
  | .moreEqual => .moreeq

namespace Machine

variable {m m' : Machine} {o : Opcode} {e : Error} {b x : List Value}

/-! ### Pushing in a row -/

/-- Push values one after another. -/
def pushEach : List Value → Act Unit
  | [] => pure ()
  | v :: vs => do
    push v
    pushEach vs

theorem pushEach_singleton (v : Value) : pushEach [v] = push v := by
  funext m
  cases hr : push v m with
  | ok _ m' => exact bind_of_ok hr
  | error e m' => exact bind_of_error hr

theorem withOperands_self (m : Machine) : m.withOperands m.operands.entries = m := by
  unfold withOperands
  rw [← Stack.eq_ofEntries rfl]

theorem pushEach_of_room {vs : List Value}
    (h : vs = [] ∨ m.operands.size + vs.length ≤ Stack.capacity) :
    pushEach vs m = .ok () (m.withOperands (vs.reverse ++ m.operands.entries)) := by
  induction vs generalizing m with
  | nil => exact congrArg (EStateM.Result.ok ()) (withOperands_self m).symm
  | cons v vs ih =>
    have hroom : m.operands.size + (vs.length + 1) ≤ Stack.capacity := by simpa using h
    have hsize :
        (m.withOperands (v :: m.operands.entries)).operands.size = m.operands.size + 1 := by
      simp [withOperands, m.operands.size_eq]
    refine (bind_of_ok (push_of_lt v (by omega))).trans ?_
    rw [ih (.inr (by omega))]
    simp [withOperands]

theorem push_cases (v : Value) (m : Machine) :
    push v m = .ok () (m.withOperands (v :: m.operands.entries)) ∨
      push v m = .error { cause := .overflow operandsFull } m := by
  by_cases h : m.operands.size < Stack.capacity
  · exact .inl (push_of_lt v h)
  · exact .inr (push_of_full v (Nat.le_of_not_lt h))

theorem pushEach_cases (vs : List Value) (m : Machine) :
    pushEach vs m = .ok () (m.withOperands (vs.reverse ++ m.operands.entries)) ∨
      ∃ m', pushEach vs m = .error { cause := .overflow operandsFull } m' := by
  induction vs generalizing m with
  | nil => exact .inl (pushEach_of_room (.inl rfl))
  | cons v vs ih =>
    rcases push_cases v m with hpush | hpush
    · have htail : pushEach (v :: vs) m = pushEach vs (m.withOperands (v :: m.operands.entries)) :=
        bind_of_ok hpush
      rcases ih (m.withOperands (v :: m.operands.entries)) with h | ⟨m', h⟩
      · rw [htail, h]
        simp [withOperands]
      · exact .inr ⟨m', htail.trans h⟩
    · exact .inr ⟨m, bind_of_error hpush⟩

/-! ### Effects -/

/-- What an operation makes of its operands. -/
inductive Effect where
  /-- Values take their place, the oldest first, unless the operation does not take them. -/
  | replaced (r : Except Mismatch (List Value))
  /-- They stay, with one of them pushed again. -/
  | copied (v : Value)
  /-- The operand goes to the registers. -/
  | stored (v : Value)
  /-- A value comes from the registers. -/
  | fetched
  /-- The operand is printed. -/
  | printed (v : Value)

/-- Bring about an effect, where `b` lies below the operands. -/
def Effect.perform (b : List Value) : Effect → Act Unit
  | .replaced (.error e) => fun m => .error { cause := .mismatch e } m
  | .replaced (.ok vs) => do
    modify (·.withOperands b)
    pushEach vs
  | .copied v => push v
  | .stored v => do
    pushOn .register v
    modify (·.withOperands b)
  | .fetched => move .register .operand
  | .printed v => do
    modify (·.withOperands b)
    write (v.display ++ "\n")

/-- The effects of the operations on their operands. -/
inductive Means : Opcode → List Value → Effect → Prop
  | rot (v₁ v₂ v₃ : Value) : Means .rot [v₁, v₂, v₃] (.replaced (.ok [v₂, v₃, v₁]))
  | dup (v : Value) : Means .dup [v] (.copied v)
  | pop (v : Value) : Means .pop [v] (.replaced (.ok []))
  | swap (v₁ v₂ : Value) : Means .swap [v₁, v₂] (.replaced (.ok [v₂, v₁]))
  | copyOver (v₁ v₂ : Value) : Means .copyOver [v₁, v₂] (.copied v₁)
  | yeet (v : Value) : Means .yeet [v] (.stored v)
  | yoink : Means .yoink [] .fetched
  | print (v : Value) : Means .print [v] (.printed v)
  | unary (op : UnaryOp) (v : Value) :
      Means op.opcode [v] (.replaced ((op.apply v).map fun w => [w]))
  | binary (op : BinaryOp) (v₁ v₂ : Value) :
      Means op.opcode [v₁, v₂] (.replaced ((op.apply v₁ v₂).map fun w => [w]))
  | divmod (v₁ v₂ : Value) :
      Means .divmod [v₁, v₂]
        (.replaced ((v₁.divide v₂).bind fun q => (v₁.modulus v₂).map fun r => [q, r]))

/-! ### The operations -/

theorem unary_of_cons (op : UnaryOp) {v : Value} (h : m.operands.entries = v :: b) :
    unary op m = (Effect.replaced ((op.apply v).map fun w => [w])).perform b m := by
  refine (bind_of_ok (require_of_entries h (by simp))).trans ?_
  refine (bind_of_ok (peek_of_getElem? (Nat.le_refl 1) (by rw [h]; rfl))).trans ?_
  cases op.apply v with
  | error e => exact bind_of_error rfl
  | ok w =>
    refine (bind_of_ok rfl).trans ((bind_of_ok (take_of_cons h)).trans ?_)
    show push w (m.withOperands b) = pushEach [w] (m.withOperands b)
    rw [pushEach_singleton]

theorem binary_of_cons (op : BinaryOp) {v₁ v₂ : Value} (h : m.operands.entries = v₂ :: v₁ :: b) :
    binary op m = (Effect.replaced ((op.apply v₁ v₂).map fun w => [w])).perform b m := by
  refine (bind_of_ok (require_of_entries h (by simp))).trans ?_
  refine (bind_of_ok (peek_of_getElem? (Nat.le_succ 1) (by rw [h]; rfl))).trans ?_
  refine (bind_of_ok (peek_of_getElem? (Nat.le_refl 1) (by rw [h]; rfl))).trans ?_
  cases op.apply v₁ v₂ with
  | error e => exact bind_of_error rfl
  | ok w =>
    refine (bind_of_ok rfl).trans ((bind_of_ok (take_of_cons h)).trans ?_)
    refine (bind_of_ok (take_of_cons rfl)).trans ?_
    show push w (m.withOperands b) = pushEach [w] (m.withOperands b)
    rw [pushEach_singleton]

theorem divideBoth_of_cons {v₁ v₂ : Value} (h : m.operands.entries = v₂ :: v₁ :: b) :
    divideBoth m =
      (Effect.replaced ((v₁.divide v₂).bind fun q => (v₁.modulus v₂).map fun r => [q, r])).perform
        b m := by
  refine (bind_of_ok (require_of_entries h (by simp))).trans ?_
  refine (bind_of_ok (peek_of_getElem? (Nat.le_succ 1) (by rw [h]; rfl))).trans ?_
  refine (bind_of_ok (peek_of_getElem? (Nat.le_refl 1) (by rw [h]; rfl))).trans ?_
  cases v₁.divide v₂ with
  | error e => exact bind_of_error rfl
  | ok q =>
    refine (bind_of_ok rfl).trans ?_
    cases v₁.modulus v₂ with
    | error e => exact bind_of_error rfl
    | ok r =>
      refine (bind_of_ok rfl).trans ((bind_of_ok (take_of_cons h)).trans ?_)
      refine (bind_of_ok (take_of_cons rfl)).trans ?_
      show (push q >>= fun _ => push r) (m.withOperands b) =
        (push q >>= fun _ => pushEach [r]) (m.withOperands b)
      rw [pushEach_singleton]

theorem rotate_of_cons {v₁ v₂ v₃ : Value} (h : m.operands.entries = v₃ :: v₂ :: v₁ :: b) :
    rotate m = pushEach [v₂, v₃, v₁] (m.withOperands b) := by
  refine (bind_of_ok (require_of_entries h (by simp))).trans ?_
  refine (bind_of_ok (take_of_cons h)).trans ((bind_of_ok (take_of_cons rfl)).trans ?_)
  refine (bind_of_ok (take_of_cons rfl)).trans ?_
  show (push v₂ >>= fun _ => push v₃ >>= fun _ => push v₁) (m.withOperands b) =
    (push v₂ >>= fun _ => push v₃ >>= fun _ => pushEach [v₁]) (m.withOperands b)
  rw [pushEach_singleton]

theorem swap_of_cons {v₁ v₂ : Value} (h : m.operands.entries = v₂ :: v₁ :: b) :
    swap m = pushEach [v₂, v₁] (m.withOperands b) := by
  refine (bind_of_ok (require_of_entries h (by simp))).trans ?_
  refine (bind_of_ok (take_of_cons h)).trans ((bind_of_ok (take_of_cons rfl)).trans ?_)
  show (push v₂ >>= fun _ => push v₁) (m.withOperands b) =
    (push v₂ >>= fun _ => pushEach [v₁]) (m.withOperands b)
  rw [pushEach_singleton]

theorem copy_of_getElem? {n : Nat} {v : Value} (hn : 1 ≤ n)
    (h : m.operands.entries[n - 1]? = some v) : copy n m = push v m := by
  have hlt : n - 1 < m.operands.entries.length := (List.getElem?_eq_some_iff.mp h).1
  have hdeep : n ≤ m.operands.size := by rw [← m.operands.size_eq]; omega
  exact (bind_of_ok (require_of_le hdeep)).trans (bind_of_ok (peek_of_getElem? hn h))

theorem perform_stored_of_lt (v : Value) (h : m.registers.size < Stack.capacity) :
    (Effect.stored v).perform b m =
      .ok () ((m.withRegisters (v :: m.registers.entries)).withOperands b) :=
  bind_of_ok (pushOn_of_lt v h)

theorem perform_stored_of_full (v : Value) (h : Stack.capacity ≤ m.registers.size) :
    (Effect.stored v).perform b m = .error { cause := .overflow registersFull } m :=
  bind_of_error (pushOn_of_full v h)

/-- A value that is moved is pushed before it is taken off. -/
theorem move_of_cons {source target : StackName} (hne : source ≠ target) {v : Value}
    {l : List Value} (h : (m.stack source).entries = v :: l) : move source target m =
      (pushOn target v >>= fun _ => modify fun m' => m'.withStack source (.ofEntries l)) m := by
  have hsize : 1 ≤ (m.stack source).size := by rw [← (m.stack source).size_eq, h]; simp
  refine (bind_of_ok (requireOn_of_le hsize)).trans ?_
  refine (bind_of_ok (peekOn_of_getElem? (Nat.le_refl 1) (by rw [h]; rfl))).trans ?_
  by_cases hroom : (m.stack target).size < Stack.capacity
  · have hpush := pushOn_of_lt v hroom
    refine (bind_of_ok hpush).trans (Eq.trans ?_ (bind_of_ok hpush).symm)
    exact bind_of_ok (takeFrom_of_cons (by rw [stack_withStack_of_ne hne, h]))
  · have hpush := pushOn_of_full v (Nat.le_of_not_lt hroom)
    exact (bind_of_error hpush).trans (bind_of_error hpush).symm

theorem perform_fetched_of_cons {v : Value} {r : List Value} (h : m.registers.entries = v :: r) :
    Effect.fetched.perform b m = (push v >>= fun _ => modify (·.withRegisters r)) m :=
  move_of_cons (by decide) h

/-- **An operation has its effect**, whatever lies below its operands. -/
theorem execute_of_means {f : Effect} (hf : Means o x f)
    (hx : m.operands.entries = x.reverse ++ b) : execute o m = f.perform b m := by
  cases hf with
  | rot v₁ v₂ v₃ => exact rotate_of_cons hx
  | dup v => exact copy_of_getElem? (Nat.le_refl 1) (by rw [hx]; rfl)
  | pop v => exact bind_of_ok (pop_of_cons hx)
  | swap v₁ v₂ => exact swap_of_cons hx
  | copyOver v₁ v₂ => exact copy_of_getElem? (Nat.le_succ 1) (by rw [hx]; rfl)
  | yeet v => exact move_of_cons (by decide) hx
  | yoink => rfl
  | print v => exact bind_of_ok (pop_of_cons hx)
  | unary op v =>
    have ho : execute op.opcode = unary op := by cases op <;> rfl
    rw [ho]
    exact unary_of_cons op hx
  | binary op v₁ v₂ =>
    have ho : execute op.opcode = binary op := by cases op <;> rfl
    rw [ho]
    exact binary_of_cons op hx
  | divmod v₁ v₂ => exact divideBoth_of_cons hx

/-! ### How effects come about -/

theorem write_cases (s : String) (m : Machine) :
    (∃ xs, write s m =
      .ok () { m with sink := (m.sink.write s).2, exchanges := m.exchanges ++ xs }) ∨
    ∃ text, write s m = .error { cause := .io text } { m with sink := (m.sink.write s).2 } := by
  have hw : write s m = exchange (m.sink.write s).1 { m with sink := (m.sink.write s).2 } := rfl
  rw [hw]
  cases (m.sink.write s).1 with
  | ok xs => exact .inl ⟨xs.toArray, rfl⟩
  | error f => exact .inr ⟨f.message, rfl⟩

/-- The operands and the registers after an effect, by their entries: `b` lies below the operands,
and `s` and `r` are the operands and the registers before. -/
inductive Effect.Moves (b s r : List Value) : Effect → List Value → List Value → Prop
  | replaced (vs : List Value) : Moves b s r (.replaced (.ok vs)) (vs.reverse ++ b) r
  | copied (v : Value) : Moves b s r (.copied v) (v :: s) r
  | stored (v : Value) : Moves b s r (.stored v) b (v :: r)
  | fetched {v : Value} {r' : List Value} (h : r = v :: r') : Moves b s r .fetched (v :: s) r'
  | printed (v : Value) : Moves b s r (.printed v) b r

/-- An effect moves the stacks as it says, or it fails, and not for want of operands. -/
theorem perform_cases {f : Effect} (hf : f = .fetched → 1 ≤ m.registers.size) :
    (∃ m', f.perform b m = .ok () m' ∧
      f.Moves b m.operands.entries m.registers.entries m'.operands.entries
        m'.registers.entries) ∨
    ∃ e m', f.perform b m = .error e m' ∧ e.kind ≠ .stackUnderflow := by
  cases f with
  | replaced r =>
    cases r with
    | error e => exact .inr ⟨_, m, rfl, nofun⟩
    | ok vs =>
      rcases pushEach_cases vs (m.withOperands b) with h | ⟨m', h⟩
      · exact .inl ⟨_, h, .replaced vs⟩
      · exact .inr ⟨_, m', h, nofun⟩
  | copied v =>
    rcases push_cases v m with h | h
    · exact .inl ⟨_, h, .copied v⟩
    · exact .inr ⟨_, m, h, nofun⟩
  | stored v =>
    by_cases hroom : m.registers.size < Stack.capacity
    · exact .inl ⟨_, perform_stored_of_lt v hroom, .stored v⟩
    · exact .inr ⟨_, m, perform_stored_of_full v (Nat.le_of_not_lt hroom), nofun⟩
  | fetched =>
    obtain ⟨v, r, hr⟩ := Stack.exists_cons_of_size (hf rfl)
    have hmove := perform_fetched_of_cons (b := b) hr
    rcases push_cases v m with h | h
    · exact .inl ⟨_, hmove.trans (bind_of_ok h), .fetched hr⟩
    · exact .inr ⟨_, m, hmove.trans (bind_of_error h), nofun⟩
  | printed v =>
    rcases write_cases (v.display ++ "\n") (m.withOperands b) with ⟨xs, h⟩ | ⟨text, h⟩
    · exact .inl ⟨_, h, .printed v⟩
    · exact .inr ⟨_, _, h, nofun⟩

end Machine

end Stackline
