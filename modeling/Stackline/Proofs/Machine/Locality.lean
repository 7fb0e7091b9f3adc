import Mathlib.Data.List.Basic
import Stackline.Proofs.Machine.Effect
import Stackline.Proofs.Machine.Frame

/-!
# Operations look no deeper than their operands

A step of an operation on the stacks of values lacks operands exactly if there are fewer than it
takes.  Otherwise it ends in the same way, and does the same to the registers and the output, on
any two machines with the same operands on top, whatever lies below them; what lies below stays
where it is, under the same results (`step_local`).  This holds of every `Effect`
(`perform_alike`), and so of every operation that has one.  Some short sequences of operations undo
themselves: `shuffled` is what the operations that only move values do to the entries of the two
stacks.
-/

namespace Stackline.Machine

variable {m m₁ m₂ m' : Machine} {o : Opcode} {i : Instruction} {f : Effect} {a : Nat}
  {b b₁ b₂ x : List Value}

/-! ### Operands and results -/

/-- The number of operands of an operation on the stacks of values. -/
def arity? : Opcode → Option Nat
  | .rot => some 3
  | .swap | .copyOver | .add | .sub | .mul | .div | .mod | .divmod | .eq | .less | .more | .lesseq
  | .moreeq => some 2
  | .dup | .pop | .yeet | .print | .inc | .dec | .makei | .makef | .makes | .ord | .chr => some 1
  | .yoink => some 0
  | _ => none

/-- The number of operands that such an operation leaves in the place of those it takes. -/
def results : Opcode → Nat
  | .rot | .copyOver => 3
  | .dup | .swap | .divmod => 2
  | .pop | .yeet | .print => 0
  | _ => 1

/-- There is less than an operation takes. -/
def Lacks (o : Opcode) (a : Nat) (m : Machine) : Prop :=
  if o = .yoink then m.registers.size = 0 else m.operands.size < a

instance (o : Opcode) (a : Nat) (m : Machine) : Decidable (Lacks o a m) :=
  inferInstanceAs (Decidable (if o = .yoink then m.registers.size = 0 else m.operands.size < a))

theorem exists_means (h : arity? o = some x.length) : ∃ f, Means o x f := by
  have one (h : some 1 = some x.length) : ∃ v, x = [v] :=
    List.length_eq_one_iff.mp (Option.some.inj h).symm
  have two (h : some 2 = some x.length) : ∃ v₁ v₂, x = [v₁, v₂] :=
    List.length_eq_two.mp (Option.some.inj h).symm
  have unary (op : UnaryOp) (h : some 1 = some x.length) : ∃ f, Means op.opcode x f := by
    obtain ⟨v, rfl⟩ := one h
    exact ⟨_, .unary op v⟩
  have binary (op : BinaryOp) (h : some 2 = some x.length) : ∃ f, Means op.opcode x f := by
    obtain ⟨v₁, v₂, rfl⟩ := two h
    exact ⟨_, .binary op v₁ v₂⟩
  cases o with
  | rot =>
    obtain ⟨v₁, v₂, v₃, rfl⟩ := List.length_eq_three.mp (Option.some.inj h).symm
    exact ⟨_, .rot v₁ v₂ v₃⟩
  | dup => obtain ⟨v, rfl⟩ := one h; exact ⟨_, .dup v⟩
  | pop => obtain ⟨v, rfl⟩ := one h; exact ⟨_, .pop v⟩
  | swap => obtain ⟨v₁, v₂, rfl⟩ := two h; exact ⟨_, .swap v₁ v₂⟩
  | copyOver => obtain ⟨v₁, v₂, rfl⟩ := two h; exact ⟨_, .copyOver v₁ v₂⟩
  | yeet => obtain ⟨v, rfl⟩ := one h; exact ⟨_, .yeet v⟩
  | yoink =>
    obtain rfl := List.length_eq_zero_iff.mp (Option.some.inj h).symm
    exact ⟨_, .yoink⟩
  | print => obtain ⟨v, rfl⟩ := one h; exact ⟨_, .print v⟩
  | divmod => obtain ⟨v₁, v₂, rfl⟩ := two h; exact ⟨_, .divmod v₁ v₂⟩
  | inc => exact unary .increment h
  | dec => exact unary .decrement h
  | makei => exact unary .makeInt h
  | makef => exact unary .makeFloat h
  | makes => exact unary .makeString h
  | ord => exact unary .ord h
  | chr => exact unary .chr h
  | add => exact binary .add h
  | sub => exact binary .subtract h
  | mul => exact binary .multiply h
  | div => exact binary .divide h
  | mod => exact binary .modulus h
  | eq => exact binary .equal h
  | less => exact binary .less h
  | more => exact binary .more h
  | lesseq => exact binary .lessEqual h
  | moreeq => exact binary .moreEqual h
  | _ => cases h

/-- An effect leaves `k` operands in the place of `n`, if it comes about. -/
def Effect.Leaves (n k : Nat) : Effect → Prop
  | .replaced (.ok vs) => vs.length = k
  | .replaced (.error _) => True
  | .copied _ | .fetched => n + 1 = k
  | .stored _ | .printed _ => k = 0

theorem Means.leaves (hf : Means o x f) : f.Leaves x.length (results o) := by
  cases hf with
  | unary op v =>
    have hone : results op.opcode = 1 := by cases op <;> rfl
    rw [hone]
    cases op.apply v with
    | error e => trivial
    | ok w => rfl
  | binary op v₁ v₂ =>
    have hone : results op.opcode = 1 := by cases op <;> rfl
    rw [hone]
    cases op.apply v₁ v₂ with
    | error e => trivial
    | ok w => rfl
  | divmod v₁ v₂ =>
    cases v₁.divide v₂ with
    | error e => trivial
    | ok q =>
      cases v₁.modulus v₂ with
      | error e => trivial
      | ok r => rfl
  | _ => rfl

theorem Means.fetched_iff (hf : Means o x f) : f = .fetched ↔ o = .yoink := by
  cases hf with
  | yoink => exact ⟨fun _ => rfl, fun _ => rfl⟩
  | unary op v => cases op <;> exact ⟨nofun, nofun⟩
  | binary op v₁ v₂ => cases op <;> exact ⟨nofun, nofun⟩
  | _ => exact ⟨nofun, nofun⟩

theorem Means.supplied (hf : Means o x f) (h : ¬ Lacks o a m) (hfetch : f = .fetched) :
    1 ≤ m.registers.size := by
  have ho := hf.fetched_iff.mp hfetch
  exact Nat.one_le_iff_ne_zero.mpr (by simpa [Lacks, ho] using h)

/-! ### Underflow -/

theorem execute_of_lacks (ha : arity? o = some a) (h : Lacks o a m) :
    ∃ e m', execute o m = .error e m' ∧ e.kind = .stackUnderflow := by
  by_cases ho : o = .yoink
  · subst ho
    have hsize : m.registers.size < 1 := Nat.lt_one_iff.mpr (by simpa [Lacks] using h)
    exact ⟨_, _, bind_of_error (requireOn_of_lt hsize), rfl⟩
  · have hsize : m.operands.size < a := by simpa [Lacks, ho] using h
    have hshort := require_of_lt hsize
    refine ⟨m.shortage .operand m.operands.size a, m.noteShortage .operand m.operands.size a,
      ?_, rfl⟩
    cases o with
    | yoink => exact absurd rfl ho
    | pop | print =>
      cases ha
      exact bind_of_error (pop_of_lt hsize)
    | rot | dup | swap | copyOver | yeet | divmod | inc | dec | makei | makef | makes | ord | chr
    | add | sub | mul | div | mod | eq | less | more | lesseq | moreeq =>
      cases ha
      exact bind_of_error hshort
    | _ => cases ha

theorem exists_effect (ha : arity? o = some a) (h : ¬ Lacks o a m) :
    ∃ x b f, x.length = a ∧ m.operands.entries = x.reverse ++ b ∧ Means o x f ∧
      (f = .fetched → 1 ≤ m.registers.size) := by
  have hdeep : a ≤ m.operands.entries.length := by
    rw [m.operands.size_eq]
    by_cases ho : o = .yoink
    · subst ho
      cases ha
      exact Nat.zero_le _
    · simpa [Lacks, ho] using h
  -- the operands are the newest entries, which the table writes in the other order
  have hlen : (m.operands.entries.take a).reverse.length = a := by simp [hdeep]
  have harity : arity? o = some (m.operands.entries.take a).reverse.length := by rw [ha, hlen]
  obtain ⟨f, hf⟩ := exists_means harity
  exact ⟨_, m.operands.entries.drop a, f, hlen, by simp, hf, hf.supplied h⟩

theorem underflows_iff (ha : arity? o = some a) :
    (∃ e m', execute o m = .error e m' ∧ e.kind = .stackUnderflow) ↔ Lacks o a m := by
  refine ⟨fun ⟨e, m', hr, hkind⟩ => ?_, execute_of_lacks ha⟩
  by_contra hdeep
  obtain ⟨x, b, f, -, hx, hf, hreg⟩ := exists_effect ha hdeep
  rw [execute_of_means hf hx] at hr
  rcases perform_cases (b := b) hreg with ⟨m₁, hm₁, -⟩ | ⟨e₁, m₁, hm₁, hne⟩
  · rw [hm₁] at hr
    cases hr
  · rw [hm₁] at hr
    cases hr
    exact hne hkind

/-! ### Two machines with the same operands on top -/

/-- There is room for what an effect pushes, where `b` lies below the operands. -/
def Effect.Fits (b : List Value) (m : Machine) : Effect → Prop
  | .replaced (.ok vs) => vs = [] ∨ b.length + vs.length ≤ Stack.capacity
  | .copied _ | .fetched => m.operands.size < Stack.capacity
  | .replaced (.error _) | .stored _ | .printed _ => True

theorem Means.fits (hf : Means o x f) (hx : m.operands.entries = x.reverse ++ b)
    (hroom : b.length + results o ≤ Stack.capacity) : f.Fits b m := by
  have hsize : m.operands.size = x.length + b.length := by
    rw [← m.operands.size_eq, hx, List.length_append, List.length_reverse]
  have hleft := hf.leaves
  cases f with
  | replaced r =>
    cases r with
    | error e => trivial
    | ok vs =>
      rw [← show vs.length = results o from hleft] at hroom
      exact .inr hroom
  | copied v | fetched =>
    have hleft : x.length + 1 = results o := hleft
    show m.operands.size < Stack.capacity
    omega
  | stored v | printed v => trivial

/-- Two machines that hold the same above `b₁` and `b₂`, have the same registers and sink, and have
handed the same to the host since they had handed over `xs₁` and `xs₂`. -/
structure Alike (b₁ b₂ : List Value) (xs₁ xs₂ : Array Exchange) (m₁ m₂ : Machine) : Prop where
  operands : ∃ y, m₁.operands.entries = y ++ b₁ ∧ m₂.operands.entries = y ++ b₂
  registers : m₁.registers = m₂.registers
  sink : m₁.sink = m₂.sink
  exchanges : ∃ xs, m₁.exchanges = xs₁ ++ xs ∧ m₂.exchanges = xs₂ ++ xs

variable {xs₁ xs₂ : Array Exchange}

theorem Alike.withOperands (h : Alike b₁ b₂ xs₁ xs₂ m₁ m₂) (y : List Value) :
    Alike b₁ b₂ xs₁ xs₂ (m₁.withOperands (y ++ b₁)) (m₂.withOperands (y ++ b₂)) :=
  ⟨⟨y, rfl, rfl⟩, h.registers, h.sink, h.exchanges⟩

theorem Alike.withRegisters (h : Alike b₁ b₂ xs₁ xs₂ m₁ m₂) (r : List Value) :
    Alike b₁ b₂ xs₁ xs₂ (m₁.withRegisters r) (m₂.withRegisters r) :=
  ⟨h.operands, rfl, h.sink, h.exchanges⟩

theorem Alike.push (h : Alike b₁ b₂ xs₁ xs₂ m₁ m₂) (v : Value) :
    Alike b₁ b₂ xs₁ xs₂ (m₁.withOperands (v :: m₁.operands.entries))
      (m₂.withOperands (v :: m₂.operands.entries)) := by
  obtain ⟨y, h₁, h₂⟩ := h.operands
  rw [h₁, h₂]
  exact h.withOperands (v :: y)

theorem Alike.write (h : Alike b₁ b₂ xs₁ xs₂ m₁ m₂) (s : String) :
    Results (Alike b₁ b₂ xs₁ xs₂) (write s m₁) (write s m₂) := by
  obtain ⟨xs, hxs₁, hxs₂⟩ := h.exchanges
  unfold Machine.write
  rw [← h.sink]
  cases m₁.sink.write s with
  | mk r sink =>
    cases r with
    | ok ys =>
      refine .ok () ⟨h.operands, h.registers, rfl, xs ++ ys.toArray, ?_, ?_⟩
      · rw [← Array.append_assoc, ← hxs₁]
      · rw [← Array.append_assoc, ← hxs₂]
    | error e => exact .error _ ⟨h.operands, h.registers, rfl, h.exchanges⟩

/-- **An effect is the same whatever lies below the operands**, if there is room for it. -/
theorem perform_alike (h : Alike b₁ b₂ xs₁ xs₂ m₁ m₂)
    (hf : f = .fetched → 1 ≤ m₁.registers.size) (h₁ : f.Fits b₁ m₁) (h₂ : f.Fits b₂ m₂) :
    Results (Alike b₁ b₂ xs₁ xs₂) (f.perform b₁ m₁) (f.perform b₂ m₂) := by
  cases f with
  | replaced r =>
    cases r with
    | error e => exact .error _ h
    | ok vs =>
      show Results _ (pushEach vs (m₁.withOperands b₁)) (pushEach vs (m₂.withOperands b₂))
      rw [pushEach_of_room (m := m₁.withOperands b₁) h₁,
        pushEach_of_room (m := m₂.withOperands b₂) h₂]
      exact .ok () (h.withOperands vs.reverse)
  | copied v =>
    show Results _ (Machine.push v m₁) (Machine.push v m₂)
    rw [push_of_lt v h₁, push_of_lt v h₂]
    exact .ok () (h.push v)
  | stored v =>
    by_cases hroom : m₁.registers.size < Stack.capacity
    · rw [perform_stored_of_lt v hroom, perform_stored_of_lt v (h.registers ▸ hroom), ← h.registers]
      exact .ok () ((h.withRegisters _).withOperands [])
    · have hfull : Stack.capacity ≤ m₁.registers.size := Nat.le_of_not_lt hroom
      rw [perform_stored_of_full v hfull, perform_stored_of_full v (h.registers ▸ hfull)]
      exact .error _ h
  | fetched =>
    obtain ⟨v, r, hr⟩ := Stack.exists_cons_of_size (hf rfl)
    rw [perform_fetched_of_cons hr, perform_fetched_of_cons (h.registers ▸ hr)]
    refine results_bind ?_ fun _ _ _ h => .ok () (h.withRegisters r)
    rw [push_of_lt v h₁, push_of_lt v h₂]
    exact .ok () (h.push v)
  | printed v => exact (h.withOperands []).write _

/-! ### Steps -/

/-- How a step ended: well, with a fault that was kept, or with an error that was reported. -/
inductive Outcome where
  | done
  | fault (kind : ErrorKind) (message : String)
  | reported (kind : ErrorKind) (message : String)
  deriving DecidableEq

/-- How the next step ends. -/
def outcome (m : Machine) : Outcome :=
  match step m with
  | .error e _ => .reported e.kind e.message
  | .ok () m' =>
    match m'.faults.drop m.faults.length with
    | [] => .done
    | e :: _ => .fault e.kind e.message

/-- How a step ends that executes an operation with the given result. -/
def Outcome.of : EStateM.Result Error Machine Unit → Outcome
  | .ok () _ => .done
  | .error e _ => if e.isFault then .fault e.kind e.message else .reported e.kind e.message

theorem Outcome.of_eq {R : Machine → Machine → Prop} {r r' : EStateM.Result Error Machine Unit}
    (h : Results R r r') : Outcome.of r = .of r' := by
  cases h with
  | ok a h => rfl
  | error e h => rfl

theorem outcome_eq (hi : m.fetch? = some i) (ho : i.opcode = some o) :
    outcome m = .of (execute o (m.begin i)) := by
  have hfaults : (endState (execute o (m.begin i))).faults = m.faults :=
    (kept_execute o (m.begin i)).faults
  have hc := concluded i (execute o (m.begin i))
  unfold outcome
  rw [step_of_fetch hi, executeInstruction_of_some ho]
  generalize execute o (m.begin i) = r at hc hfaults
  generalize conclude i r = r' at hc
  cases hc with
  | moved m₁ =>
    have hsame : m₁.advance.faults = m.faults := (faults_advance m₁).trans hfaults
    simp [hsame, Outcome.of]
  | @faulted e m₁ log he =>
    -- the one fault beyond those of `m` is the error, which its line does not change
    have hsame : m₁.faults = m.faults := hfaults
    simp [hsame, Outcome.of, he, Error.kind, Error.message, Error.inLine]
  | @reported e m₁ he => simp [Outcome.of, he, Error.kind, Error.message, Error.inLine]

theorem outcome_underflow_iff (ha : arity? o = some a) (hi : m.fetch? = some i)
    (ho : i.opcode = some o) :
    (∃ text, outcome m = .fault .stackUnderflow text) ↔ Lacks o a m := by
  have hlacks : Lacks o a m ↔ Lacks o a (m.begin i) := Iff.rfl
  rw [hlacks, ← underflows_iff ha, outcome_eq hi ho]
  cases execute o (m.begin i) with
  | ok _ m' => simp [Outcome.of]
  | error e m' =>
    by_cases he : e.isFault = true
    · simp [Outcome.of, he]
    · have hkind : e.kind ≠ .stackUnderflow := by
        intro hkind
        exact he (congrArg ErrorKind.isFault hkind)
      simp [Outcome.of, he, hkind]

/-- The stacks of values, the sink and what was handed to the host are the same. -/
structure SameValues (m m' : Machine) : Prop where
  operands : m'.operands = m.operands
  registers : m'.registers = m.registers
  sink : m'.sink = m.sink
  exchanges : m'.exchanges = m.exchanges

theorem sameValues_advance (m : Machine) : SameValues m m.advance := by
  unfold advance
  split <;> exact ⟨rfl, rfl, rfl, rfl⟩

theorem sameValues_conclude (i : Instruction) (r : EStateM.Result Error Machine Unit) :
    SameValues (endState r) (endState (conclude i r)) := by
  have hc := concluded i r
  generalize conclude i r = r' at hc
  cases hc with
  | moved m => exact sameValues_advance m
  | faulted m log he => exact ⟨rfl, rfl, rfl, rfl⟩
  | reported m he => exact ⟨rfl, rfl, rfl, rfl⟩

theorem sameValues_step (hi : m.fetch? = some i) (ho : i.opcode = some o) :
    SameValues (endState (execute o (m.begin i))) (endState (step m)) := by
  rw [step_of_fetch hi, executeInstruction_of_some ho]
  exact sameValues_conclude i _

theorem Alike.congr {m₁' m₂' : Machine} (h : Alike b₁ b₂ xs₁ xs₂ m₁ m₂) (h₁ : SameValues m₁ m₁')
    (h₂ : SameValues m₂ m₂') : Alike b₁ b₂ xs₁ xs₂ m₁' m₂' where
  operands := by rw [h₁.operands, h₂.operands]; exact h.operands
  registers := by rw [h₁.registers, h₂.registers]; exact h.registers
  sink := by rw [h₁.sink, h₂.sink]; exact h.sink
  exchanges := by rw [h₁.exchanges, h₂.exchanges]; exact h.exchanges

/-- The machine is about to execute an operation. -/
def Next (o : Opcode) (m : Machine) : Prop := ∃ i, m.fetch? = some i ∧ i.opcode = some o

theorem step_alike (hf : Means o x f) (hn₁ : Next o m₁) (hn₂ : Next o m₂)
    (hreg : f = .fetched → 1 ≤ m₁.registers.size)
    (hx₁ : m₁.operands.entries = x.reverse ++ b₁) (hx₂ : m₂.operands.entries = x.reverse ++ b₂)
    (hroom₁ : b₁.length + results o ≤ Stack.capacity)
    (hroom₂ : b₂.length + results o ≤ Stack.capacity)
    (hr : m₁.registers = m₂.registers) (hs : m₁.sink = m₂.sink) :
    outcome m₁ = outcome m₂ ∧
      Alike b₁ b₂ m₁.exchanges m₂.exchanges (endState (step m₁)) (endState (step m₂)) := by
  obtain ⟨i₁, hi₁, ho₁⟩ := hn₁
  obtain ⟨i₂, hi₂, ho₂⟩ := hn₂
  have hstart : Alike b₁ b₂ m₁.exchanges m₂.exchanges (m₁.begin i₁) (m₂.begin i₂) :=
    ⟨⟨x.reverse, hx₁, hx₂⟩, hr, hs, #[], rfl, rfl⟩
  have hresults : Results (Alike b₁ b₂ m₁.exchanges m₂.exchanges) (execute o (m₁.begin i₁))
      (execute o (m₂.begin i₂)) := by
    rw [execute_of_means (m := m₁.begin i₁) hf hx₁, execute_of_means (m := m₂.begin i₂) hf hx₂]
    exact perform_alike hstart hreg (hf.fits hx₁ hroom₁) (hf.fits hx₂ hroom₂)
  refine ⟨?_, hresults.endState.congr (sameValues_step hi₁ ho₁) (sameValues_step hi₂ ho₂)⟩
  rw [outcome_eq hi₁ ho₁, outcome_eq hi₂ ho₂, Outcome.of_eq hresults]

theorem not_lacks_of_done (ha : arity? o = some a) (hn : Next o m) (hd : outcome m = .done) :
    ¬ Lacks o a m := by
  obtain ⟨i, hi, ho⟩ := hn
  rw [← outcome_underflow_iff ha hi ho, hd]
  exact nofun

/-- What a step that goes well does to the stacks. -/
theorem moves_of_done (hf : Means o x f) (hx : m.operands.entries = x.reverse ++ b)
    (hreg : f = .fetched → 1 ≤ m.registers.size) (hn : Next o m) (hd : outcome m = .done) :
    f.Moves b m.operands.entries m.registers.entries (endState (step m)).operands.entries
      (endState (step m)).registers.entries := by
  obtain ⟨i, hi, ho⟩ := hn
  have hstep := sameValues_step hi ho
  rw [outcome_eq hi ho] at hd
  rw [hstep.operands, hstep.registers]
  rw [execute_of_means (m := m.begin i) hf hx] at hd ⊢
  rcases perform_cases (m := m.begin i) (b := b) hreg with ⟨m', h, hmoves⟩ | ⟨e, m', h, -⟩
  · rw [h]
    exact hmoves
  · rw [h] at hd
    simp only [Outcome.of] at hd
    split at hd <;> cases hd

theorem Means.length_of_moves {r s' r' : List Value} (hf : Means o x f)
    (h : f.Moves b (x.reverse ++ b) r s' r') : s'.length = b.length + results o := by
  have hleft := hf.leaves
  cases h with
  | replaced vs =>
    have hleft : vs.length = results o := hleft
    simp [hleft, Nat.add_comm]
  | copied v | fetched h =>
    have hleft : x.length + 1 = results o := hleft
    simp only [List.length_cons, List.length_append, List.length_reverse]
    omega
  | stored v | printed v =>
    rw [show results o = 0 from hleft, Nat.add_zero]

/-! ### Sequences that undo themselves -/

/-- The machine executes operations one after another, and each step goes well. -/
inductive Performs : List Opcode → Machine → Machine → Prop
  | nil (m : Machine) : Performs [] m m
  | cons {o : Opcode} {os : List Opcode} {m m' : Machine} (hn : Next o m) (hd : outcome m = .done)
      (h : Performs os (endState (step m)) m') : Performs (o :: os) m m'

/-- The operations that only move values. -/
def shuffles : List Opcode := [.rot, .dup, .pop, .swap, .copyOver, .yeet, .yoink]

/-- What an operation that only moves values makes of the operands and the registers, the newest
first. -/
def shuffled (p : List Value × List Value) (o : Opcode) : Option (List Value × List Value) :=
  match o, p with
  | .rot, (v₃ :: v₂ :: v₁ :: l, r) => some (v₁ :: v₃ :: v₂ :: l, r)
  | .dup, (v :: l, r) => some (v :: v :: l, r)
  | .pop, (_ :: l, r) => some (l, r)
  | .swap, (v₂ :: v₁ :: l, r) => some (v₁ :: v₂ :: l, r)
  | .copyOver, (v₂ :: v₁ :: l, r) => some (v₁ :: v₂ :: v₁ :: l, r)
  | .yeet, (v :: l, r) => some (l, v :: r)
  | .yoink, (l, v :: r) => some (v :: l, r)
  | _, _ => none

/-- The entries of the two stacks of values. -/
def values (m : Machine) : List Value × List Value := (m.operands.entries, m.registers.entries)

theorem shuffled_of_moves {r s' r' : List Value} (ho : o ∈ shuffles) (hf : Means o x f)
    (h : f.Moves b (x.reverse ++ b) r s' r') : shuffled (x.reverse ++ b, r) o = some (s', r') := by
  cases hf with
  | rot v₁ v₂ v₃ | dup v | pop v | swap v₁ v₂ | copyOver v₁ v₂ | yeet v => cases h; rfl
  | yoink =>
    cases h with
    | fetched h => subst h; rfl
  | unary op v => cases op <;> simp [shuffles, UnaryOp.opcode] at ho
  | binary op v₁ v₂ => cases op <;> simp [shuffles, BinaryOp.opcode] at ho
  | print v | divmod v₁ v₂ => simp [shuffles] at ho

theorem shuffled_of_done (ho : o ∈ shuffles) (hn : Next o m) (hd : outcome m = .done) :
    shuffled m.values o = some (endState (step m)).values := by
  have ha : ∃ a, arity? o = some a := by
    simp only [shuffles, List.mem_cons, List.not_mem_nil, or_false] at ho
    rcases ho with rfl | rfl | rfl | rfl | rfl | rfl | rfl <;> exact ⟨_, rfl⟩
  obtain ⟨a, ha⟩ := ha
  obtain ⟨x, b, f, -, hx, hf, hreg⟩ := exists_effect ha (not_lacks_of_done ha hn hd)
  have hmoves := moves_of_done hf hx hreg hn hd
  unfold values
  rw [hx] at hmoves ⊢
  exact shuffled_of_moves ho hf hmoves

theorem shuffled_of_performs {os : List Opcode} (hos : ∀ o ∈ os, o ∈ shuffles)
    (h : Performs os m m') : os.foldlM shuffled m.values = some m'.values := by
  induction h with
  | nil m => rfl
  | cons hn hd h ih =>
    rw [List.foldlM_cons, shuffled_of_done (hos _ List.mem_cons_self) hn hd]
    exact ih fun o ho => hos o (List.mem_cons_of_mem _ ho)

/-- Sequences of operations that give back what there was. -/
def restoring : List (List Opcode) :=
  [[.dup, .pop], [.copyOver, .pop], [.swap, .swap], [.rot, .rot, .rot], [.yeet, .yoink]]

theorem eq_of_restoring {os : List Opcode} {p q : List Value × List Value} (hos : os ∈ restoring)
    (h : os.foldlM shuffled p = some q) : q = p := by
  obtain ⟨s, r⟩ := p
  simp only [restoring, List.mem_cons, List.not_mem_nil, or_false] at hos
  -- too few operands for the first operation give nothing; with enough, each sequence computes
  rcases hos with rfl | rfl | rfl | rfl | rfl
  · match s, h with
    | v :: l, h => exact (Option.some.inj h).symm
  · match s, h with
    | v₂ :: v₁ :: l, h => exact (Option.some.inj h).symm
  · match s, h with
    | v₂ :: v₁ :: l, h => exact (Option.some.inj h).symm
  · match s, h with
    | v₃ :: v₂ :: v₁ :: l, h => exact (Option.some.inj h).symm
  · match s, h with
    | v :: l, h => exact (Option.some.inj h).symm

theorem restores {os : List Opcode} (hos : os ∈ restoring) (h : Performs os m m') :
    m'.operands = m.operands ∧ m'.registers = m.registers := by
  have hmoves : ∀ o ∈ os, o ∈ shuffles := by
    simp only [restoring, List.mem_cons, List.not_mem_nil, or_false] at hos
    rcases hos with rfl | rfl | rfl | rfl | rfl <;> decide
  have hvalues := eq_of_restoring hos (shuffled_of_performs hmoves h)
  exact ⟨Stack.ext (congrArg Prod.fst hvalues), Stack.ext (congrArg Prod.snd hvalues)⟩

theorem entries_of_toList {s : Stack Value} (h : s.toList = b ++ x) :
    s.entries = x.reverse ++ b.reverse := by
  rw [← List.reverse_append, ← h]
  exact s.entries.reverse_reverse.symm

theorem toList_of_entries {s : Stack Value} {y : List Value} (h : s.entries = y ++ b.reverse) :
    s.toList = b ++ y.reverse := by
  simp [Stack.toList, h]

/-- **Operations look no deeper than their operands.**  A step lacks operands exactly if there are
fewer than the operation takes.  Otherwise, on two machines with the same operands `x` on top, room
for the results, the same registers and the same sink, it ends in the same way, leaves the same
registers and the same sink and hands the same to the host; and if it goes well, both have the same
operands `y` in the place of `x`.  Some sequences of steps that go well restore both stacks. -/
theorem step_local :
    (∀ (o : Opcode) (a : Nat) (m : Machine), arity? o = some a → Next o m →
      ((∃ text, outcome m = .fault .stackUnderflow text) ↔ Lacks o a m)) ∧
    (∀ (o : Opcode) (b₁ b₂ x : List Value) (m₁ m₂ : Machine), arity? o = some x.length →
      Next o m₁ → Next o m₂ → ¬ Lacks o x.length m₁ →
      m₁.operands.toList = b₁ ++ x → m₂.operands.toList = b₂ ++ x →
      b₁.length + results o ≤ Stack.capacity → b₂.length + results o ≤ Stack.capacity →
      m₁.registers = m₂.registers → m₁.sink = m₂.sink →
      outcome m₁ = outcome m₂ ∧
      (endState (step m₁)).registers = (endState (step m₂)).registers ∧
      (endState (step m₁)).sink = (endState (step m₂)).sink ∧
      (∃ xs, (endState (step m₁)).exchanges = m₁.exchanges ++ xs ∧
        (endState (step m₂)).exchanges = m₂.exchanges ++ xs) ∧
      (outcome m₁ = .done → ∃ y, y.length = results o ∧
        (endState (step m₁)).operands.toList = b₁ ++ y ∧
        (endState (step m₂)).operands.toList = b₂ ++ y)) ∧
    ∀ os ∈ restoring, ∀ m m' : Machine, Performs os m m' →
      m'.operands = m.operands ∧ m'.registers = m.registers := by
  refine ⟨fun o a m ha hn => ?_, ?_, fun os hos m m' h => restores hos h⟩
  · obtain ⟨i, hi, ho⟩ := hn
    exact outcome_underflow_iff ha hi ho
  · intro o b₁ b₂ x m₁ m₂ ha hn₁ hn₂ hdeep hx₁ hx₂ hroom₁ hroom₂ hr hs
    obtain ⟨f, hf⟩ := exists_means ha
    have hreg := hf.supplied hdeep
    rw [← List.length_reverse] at hroom₁ hroom₂
    have hx₁ := entries_of_toList hx₁
    have hx₂ := entries_of_toList hx₂
    obtain ⟨hout, hend⟩ := step_alike hf hn₁ hn₂ hreg hx₁ hx₂ hroom₁ hroom₂ hr hs
    refine ⟨hout, hend.registers, hend.sink, hend.exchanges, fun hd => ?_⟩
    obtain ⟨y, hy₁, hy₂⟩ := hend.operands
    have hmoves := moves_of_done hf hx₁ hreg hn₁ hd
    rw [hx₁, hy₁] at hmoves
    have hlen := hf.length_of_moves hmoves
    rw [List.length_append] at hlen
    exact ⟨y.reverse, by rw [List.length_reverse]; omega, toList_of_entries hy₁,
      toList_of_entries hy₂⟩

/-- Subtract one operand from another. -/
def subLine : Instruction := .ofMnemonic 10 "SUB" []

/-- Store the difference of two operands and fetch it back. -/
def detour : List Instruction :=
  [subLine, .ofMnemonic 20 "YEET" [],
    .ofMnemonic 30 "YOINK" []]

/-- A machine before that detour, with given operands, the newest first. -/
def detouring (l : List Value) : Machine :=
  { start (.ofInstructions detour) (.ofText "") .capture with operands := .ofEntries l }

/-- With too few operands the difference is an underflow; with enough it is the same, with and
without an operand below; and the detour through the registers ends where it began. -/
theorem step_local_detouring :
    (∃ text, outcome (detouring [.integer 5]) = .fault .stackUnderflow text) ∧
    (∃ y, y.length = 1 ∧
      (endState (step (detouring [.integer 5, .integer 7]))).operands.toList = [] ++ y ∧
      (endState (step (detouring [.integer 5, .integer 7, .null]))).operands.toList =
        [.null] ++ y) ∧
    (after 3 (detouring [.integer 5, .integer 7])).operands =
      (after 1 (detouring [.integer 5, .integer 7])).operands := by
  obtain ⟨hunder, hlocal, hrestore⟩ := step_local
  have hopcode : subLine.opcode = some .sub := by decide +kernel
  have hsub (l : List Value) : Next .sub (detouring l) := ⟨subLine, rfl, hopcode⟩
  refine ⟨(hunder .sub 2 _ rfl (hsub _)).mpr (by decide), ?_, ?_⟩
  · have h := hlocal .sub [] [.null] [.integer 7, .integer 5] (detouring [.integer 5, .integer 7])
      (detouring [.integer 5, .integer 7, .null]) rfl (hsub _) (hsub _) (by decide) rfl rfl
      (by decide) (by decide) rfl rfl
    exact h.2.2.2.2 (by decide +kernel)
  · refine (hrestore [.yeet, .yoink] (by decide) (after 1 (detouring [.integer 5, .integer 7]))
      (after 3 (detouring [.integer 5, .integer 7])) ?_).1
    refine .cons ⟨_, rfl, by decide +kernel⟩ (by decide +kernel) ?_
    exact .cons ⟨_, rfl, by decide +kernel⟩ (by decide +kernel) (.nil _)

end Stackline.Machine
