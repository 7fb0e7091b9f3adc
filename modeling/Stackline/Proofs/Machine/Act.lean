import Stackline.Machine.Run
import Stackline.Proofs.Stack

/-!
# Acts one part at a time

An act is a chain of parts.  `bind_of_ok` and `bind_of_error` pass its first part, and the lemmas
after them say for each part when it succeeds and with which machine, in terms of the entries of
the stacks.
-/

namespace Stackline

/-- The state in which something ended, whether or not it failed. -/
def endState {ε σ α : Type} : EStateM.Result ε σ α → σ
  | .ok _ s => s
  | .error _ s => s

@[simp] theorem endState_ok {ε σ α : Type} (a : α) (s : σ) :
    endState (.ok a s : EStateM.Result ε σ α) = s := rfl

@[simp] theorem endState_error {ε σ α : Type} (e : ε) (s : σ) :
    endState (.error e s : EStateM.Result ε σ α) = s := rfl

/-- Two results with the same value or the same error, and with related states. -/
inductive Results {ε σ τ α : Type} (R : σ → τ → Prop) :
    EStateM.Result ε σ α → EStateM.Result ε τ α → Prop
  | ok (a : α) {s : σ} {t : τ} (h : R s t) : Results R (.ok a s) (.ok a t)
  | error (e : ε) {s : σ} {t : τ} (h : R s t) : Results R (.error e s) (.error e t)

theorem Results.endState {ε σ τ α : Type} {R : σ → τ → Prop} {r : EStateM.Result ε σ α}
    {r' : EStateM.Result ε τ α} (h : Results R r r') : R (endState r) (endState r') := by
  cases h with
  | ok a h => exact h
  | error e h => exact h

namespace Machine

variable {α β : Type} {act : Act α} {f : α → Act β} {m m' : Machine}

/-- No stack holds more than it may. -/
structure Bounded (m : Machine) : Prop where
  operands : m.operands.size ≤ Stack.capacity
  registers : m.registers.size ≤ Stack.capacity
  calls : m.calls.size ≤ Stack.capacity

/-! ### Passing a part -/

theorem bind_of_ok {a : α} (h : act m = .ok a m') : (act >>= f) m = f a m' := by
  show EStateM.bind act f m = _
  unfold EStateM.bind
  rw [h]

theorem bind_of_error {e : Error} (h : act m = .error e m') : (act >>= f) m = .error e m' := by
  show EStateM.bind act f m = _
  unfold EStateM.bind
  rw [h]

/-- What holds at the end of the first part, and is carried over the second, holds in the end. -/
theorem endState_bind {Q : Machine → Prop} (h : Q (endState (act m)))
    (hf : ∀ a m₁, Q m₁ → Q (endState (f a m₁))) : Q (endState ((act >>= f) m)) := by
  cases hr : act m with
  | ok a m₁ =>
    rw [hr] at h
    rw [bind_of_ok hr]
    exact hf a m₁ h
  | error e m₁ =>
    rw [hr] at h
    rwa [bind_of_error hr]

theorem results_bind {R : Machine → Machine → Prop} (h : Results R (act m) (act m'))
    (hf : ∀ a m₁ m₁', R m₁ m₁' → Results R (f a m₁) (f a m₁')) :
    Results R ((act >>= f) m) ((act >>= f) m') := by
  generalize hr : act m = r at h
  generalize hr' : act m' = r' at h
  cases h with
  | ok a h =>
    rw [bind_of_ok hr, bind_of_ok hr']
    exact hf a _ _ h
  | error e h =>
    rw [bind_of_error hr, bind_of_error hr']
    exact .error e h

theorem modify_eq (g : Machine → Machine) (m : Machine) : (modify g : Act Unit) m = .ok () (g m) :=
  rfl

/-! ### Depths -/

/-- The instruction that an underflow is put down to. -/
def blamed (m : Machine) : String × LineNumber :=
  match m.current with
  | some i => (i.mnemonic, i.line)
  | none => ("", 0)

/-- The underflow of a stack. -/
def shortage (m : Machine) (stack : StackName) (actual expected : Nat) : Error :=
  { cause := .underflow m.blamed.1 stack expected actual, line := some m.blamed.2 }

/-- The machine after an underflow. -/
def noteShortage (m : Machine) (stack : StackName) (actual expected : Nat) : Machine :=
  m.note (.underflow m.blamed.1 m.blamed.2 expected actual stack)

theorem checkDepth_of_le {stack : StackName} {actual expected : Nat} (h : expected ≤ actual) :
    checkDepth stack actual expected m = .ok () m := by
  unfold checkDepth
  rw [if_pos h]

theorem checkDepth_of_lt {stack : StackName} {actual expected : Nat} (h : actual < expected) :
    checkDepth stack actual expected m =
      .error (m.shortage stack actual expected) (m.noteShortage stack actual expected) := by
  unfold checkDepth
  rw [if_neg (by omega)]
  rfl

theorem requireOn_of_le {name : StackName} {n : Nat} (h : n ≤ (m.stack name).size) :
    requireOn name n m = .ok () m :=
  checkDepth_of_le h

theorem requireOn_of_lt {name : StackName} {n : Nat} (h : (m.stack name).size < n) :
    requireOn name n m = .error (m.shortage name (m.stack name).size n)
      (m.noteShortage name (m.stack name).size n) :=
  checkDepth_of_lt h

theorem require_of_le {n : Nat} (h : n ≤ m.operands.size) : require n m = .ok () m :=
  checkDepth_of_le h

theorem require_of_entries {n : Nat} {l : List Value} (h : m.operands.entries = l)
    (hn : n ≤ l.length) : require n m = .ok () m :=
  require_of_le (by rw [← m.operands.size_eq, h]; exact hn)

theorem require_of_lt {n : Nat} (h : m.operands.size < n) :
    require n m = .error (m.shortage .operand m.operands.size n)
      (m.noteShortage .operand m.operands.size n) :=
  checkDepth_of_lt h

/-! ### Stacks of values -/

theorem stack_withStack (m : Machine) (name : StackName) (s : Stack Value) :
    (m.withStack name s).stack name = s := by
  cases name <;> rfl

theorem stack_withStack_of_ne {name name' : StackName} (h : name' ≠ name) (m : Machine)
    (s : Stack Value) : (m.withStack name s).stack name' = m.stack name' := by
  cases name <;> cases name' <;> first | rfl | exact absurd rfl h

theorem withStack_stack (m : Machine) (name : StackName) : m.withStack name (m.stack name) = m := by
  cases name <;> rfl

section OnStack

variable {name : StackName} {op : Stack Value → Stack.Result Value α} {s : Stack Value}

theorem onStack_of_ok {a : α} (h : op (m.stack name) = .ok a s) :
    onStack name op m = .ok a (m.withStack name s) := by
  unfold onStack
  rw [h]

/-- Where an operation that fails leaves its stack alone, the machine stays as it was. -/
theorem onStack_of_error {f : Stack.Fault} (h : op (m.stack name) = .error f (m.stack name)) :
    onStack name op m = .error { cause := .ofStack (fullNotice name) f } m := by
  unfold onStack
  rw [h]
  exact congrArg _ (withStack_stack m name)

theorem pushOn_of_lt (v : Value) (h : (m.stack name).size < Stack.capacity) :
    pushOn name v m = .ok () (m.withStack name (.ofEntries (v :: (m.stack name).entries))) :=
  onStack_of_ok (Stack.push_of_lt v h)

theorem pushOn_of_full (v : Value) (h : Stack.capacity ≤ (m.stack name).size) :
    pushOn name v m = .error { cause := .overflow (fullNotice name) } m :=
  onStack_of_error (f := .full) (Stack.push_of_full v h)

theorem peekOn_of_getElem? {n : Nat} {v : Value} (hn : 1 ≤ n)
    (h : (m.stack name).entries[n - 1]? = some v) : peekOn name n m = .ok v m := by
  unfold peekOn
  rw [Stack.peek?_of_getElem? hn h]

theorem takeFrom_of_cons {v : Value} {l : List Value} (h : (m.stack name).entries = v :: l) :
    takeFrom name m = .ok v (m.withStack name (.ofEntries l)) :=
  onStack_of_ok (Stack.pop_of_cons h)

end OnStack

/-! ### Operands and registers -/

/-- The machine with other operands, given by their entries. -/
def withOperands (m : Machine) (l : List Value) : Machine := { m with operands := .ofEntries l }

/-- The machine with other registers, given by their entries. -/
def withRegisters (m : Machine) (l : List Value) : Machine := { m with registers := .ofEntries l }

theorem push_of_lt (v : Value) (h : m.operands.size < Stack.capacity) :
    push v m = .ok () (m.withOperands (v :: m.operands.entries)) :=
  pushOn_of_lt v h

theorem push_of_full (v : Value) (h : Stack.capacity ≤ m.operands.size) :
    push v m = .error { cause := .overflow operandsFull } m :=
  pushOn_of_full v h

theorem pushAll_of_le {vs : List Value} (h : m.operands.size + vs.length ≤ Stack.capacity) :
    pushAll vs m = .ok () (m.withOperands (vs.reverse ++ m.operands.entries)) :=
  onStack_of_ok (Stack.pushAll_of_le h)

theorem pushAll_of_full {vs : List Value} (h : Stack.capacity < m.operands.size + vs.length) :
    pushAll vs m = .error { cause := .overflow operandsFull } m :=
  onStack_of_error (f := .full) (Stack.pushAll_of_full h)

theorem peek_of_getElem? {n : Nat} {v : Value} (hn : 1 ≤ n)
    (h : m.operands.entries[n - 1]? = some v) : peek n m = .ok v m :=
  peekOn_of_getElem? hn h

theorem take_of_cons {v : Value} {l : List Value} (h : m.operands.entries = v :: l) :
    take m = .ok v (m.withOperands l) :=
  takeFrom_of_cons h

theorem pop_of_cons {v : Value} {l : List Value} (h : m.operands.entries = v :: l) :
    pop m = .ok v (m.withOperands l) :=
  (bind_of_ok (require_of_entries h (by simp))).trans (take_of_cons h)

theorem pop_of_lt (h : m.operands.size < 1) :
    pop m = .error (m.shortage .operand m.operands.size 1)
      (m.noteShortage .operand m.operands.size 1) :=
  bind_of_error (require_of_lt h)

/-! ### Literals -/

theorem literal_of_ok {s : String} {v : Value} (h : Literal.read s = .ok v) (m : Machine) :
    literal s m = .ok v m := by
  unfold literal
  rw [h]

theorem literal_of_error {s : String} {e : Literal.Fault} (h : Literal.read s = .error e)
    (m : Machine) : literal s m = .error { cause := .literal e } m := by
  unfold literal
  rw [h]

/-! ### Lines to return to -/

/-- The machine with other lines to return to, given by their entries. -/
def withCalls (m : Machine) (l : List LineNumber) : Machine := { m with calls := .ofEntries l }

theorem callLine_of_none (hc : m.current = none) : callLine m = unforeseen m := by
  unfold callLine
  rw [hc]

theorem callLine_of_lt {i : Instruction} (hc : m.current = some i)
    (h : m.calls.size < Stack.capacity) :
    callLine m = .ok () (m.withCalls (i.line :: m.calls.entries)).jump := by
  unfold callLine withCalls
  rw [hc]
  simp only
  rw [Stack.push_of_lt i.line h]

theorem callLine_of_full {i : Instruction} (hc : m.current = some i)
    (h : Stack.capacity ≤ m.calls.size) :
    callLine m = .error { cause := .overflow callsFull } m := by
  unfold callLine
  split
  · rename_i hnone
    rw [hc] at hnone
    cases hnone
  · rename_i j hj
    rw [Stack.push_of_full j.line h]
    rfl

theorem returnToLine_of_cons {line : LineNumber} {l : List LineNumber}
    (h : m.calls.entries = line :: l) :
    returnToLine m = .ok () ((m.withCalls l).jumpToLine (line.toNat + 1) true) := by
  unfold returnToLine
  rw [Stack.pop_of_cons h]
  rfl

theorem returnToLine_of_nil (h : m.calls.entries = []) :
    returnToLine m = .error { cause := .noCall } m := by
  unfold returnToLine
  rw [Stack.pop_of_nil h]

end Machine

end Stackline
