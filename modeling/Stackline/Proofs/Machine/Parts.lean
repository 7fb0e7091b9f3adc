import Stackline.Proofs.Machine.Act

/-!
# What operations are made of

`Composed o act` says that `act` is put together from the parts that the operation `o` may use.
Every operation is (`composed_execute`), so what all parts keep, all operations keep.  The first use
of this is `Kept`: which of a machine's fields an operation leaves alone, and how it may change the
pointer and the lines to return to.  Most parts are `Plain`: they have to do with the stacks of
values and the host only.  `Composed.induct_plain` treats them as one.
-/

namespace Stackline.Machine

variable {α β : Type} {o : Opcode} {m m₁ m₂ m₃ : Machine}

/-- Whether an operation may go to the line that its first parameter gives. -/
def isJump : Opcode → Bool
  | .goto | .jp | .jnp | .jn | .jnn | .jz | .jnl | .gosub => true
  | _ => false

/-- `act` is put together from parts that the operation `o` may use.  Only the jumps go to a line
given by a parameter, only `GOSUB` remembers a line, only `RETURN` goes back to one, and only `EXIT`
stops the machine. -/
inductive Composed (o : Opcode) : {α : Type} → Act α → Prop
  | pure {α : Type} (a : α) : Composed o (Pure.pure a)
  | bind {α β : Type} {act : Act α} {f : α → Act β} (ha : Composed o act)
      (hf : ∀ a, Composed o (f a)) : Composed o (act >>= f)
  /-- What is done next may depend on the current instruction and on the stacks of values. -/
  | look {α : Type} {f : Option Instruction → Stack Value → Stack Value → Act α}
      (hf : ∀ c s r, Composed o (f c s r)) :
      Composed o fun m => f m.current m.operands m.registers m
  | requireOn (name : StackName) (n : Nat) : Composed o (requireOn name n)
  | pushOn (name : StackName) (v : Value) : Composed o (pushOn name v)
  | pushAll (vs : List Value) : Composed o (pushAll vs)
  | peekOn (name : StackName) (depth : Nat) : Composed o (peekOn name depth)
  | takeFrom (name : StackName) : Composed o (takeFrom name)
  | write (s : String) : Composed o (write s)
  | flush : Composed o flush
  | prompt (s : String) : Composed o (prompt s)
  | reading {α : Type} (reader : Input → Except Failure α × Input) : Composed o (reading reader)
  | computed (r : Except Mismatch Value) : Composed o (computed r)
  | literal (s : String) : Composed o (literal s)
  | unforeseen : Composed o unforeseen
  | jump (ho : isJump o = true) : Composed o (modify jump)
  | call (ho : o = .gosub) : Composed o callLine
  | ret (ho : o = .ret) : Composed o returnToLine
  | report : Composed o report
  | kill (ho : o = .exit) : Composed o (modify kill)

/-! ### The operations -/

theorem composed_require (n : Nat) : Composed o (require n) := .requireOn .operand n

theorem composed_push (v : Value) : Composed o (push v) := .pushOn .operand v

theorem composed_peek (depth : Nat) : Composed o (peek depth) := .peekOn .operand depth

theorem composed_take : Composed o take := .takeFrom .operand

theorem composed_pop : Composed o pop := .bind (composed_require 1) fun _ => composed_take

theorem composed_unary (op : UnaryOp) : Composed o (unary op) :=
  .bind (composed_require 1) fun _ => .bind (composed_peek 1) fun _ => .bind (.computed _) fun v =>
    .bind composed_take fun _ => composed_push v

theorem composed_binary (op : BinaryOp) : Composed o (binary op) :=
  .bind (composed_require 2) fun _ => .bind (composed_peek 2) fun _ => .bind (composed_peek 1) fun _ =>
    .bind (.computed _) fun v => .bind composed_take fun _ => .bind composed_take fun _ =>
      composed_push v

theorem composed_divideBoth : Composed o divideBoth :=
  .bind (composed_require 2) fun _ => .bind (composed_peek 2) fun _ => .bind (composed_peek 1) fun _ =>
    .bind (.computed _) fun q => .bind (.computed _) fun r =>
      .bind composed_take fun _ => .bind composed_take fun _ => .bind (composed_push q) fun _ =>
        composed_push r

/-- Whether a test on the newest operand makes an instruction jump. -/
def fires (test : Float → Bool) (operands : Stack Value) : Bool :=
  (operands.top?.bind Value.toFloat?).any test

theorem jumpIf_eq (test : Float → Bool) :
    jumpIf test = require 1 >>= fun _ m => .ok () (if fires test m.operands then m.jump else m) := by
  unfold jumpIf
  congr 1
  funext _ m
  refine congrArg (EStateM.Result.ok ()) ?_
  dsimp only
  split
  · rename_i x hx
    have hf : fires test m.operands = test x := by rw [fires, hx]; rfl
    rw [hf]
  · rename_i hx
    have hf : fires test m.operands = false := by rw [fires, hx]; rfl
    rw [hf]
    rfl

theorem composed_jumpIf (ho : isJump o = true) (test : Float → Bool) :
    Composed o (jumpIf test) := by
  rw [jumpIf_eq]
  refine .bind (composed_require 1) fun _ => ?_
  refine .look (f := fun _ s _ m => .ok () (if fires test s then m.jump else m)) ?_
  intro c s r
  cases fires test s with
  | true => exact .jump ho
  | false => exact .pure ()

theorem composed_jumpIfNull (ho : isJump o = true) : Composed o jumpIfNull := by
  refine .bind (composed_require 1) fun _ => .bind (composed_peek 1) fun v => ?_
  split
  · exact .bind composed_take fun _ => .jump ho
  · exact .pure ()

theorem composed_literals (ps : List String) : Composed o (literals ps) := by
  induction ps with
  | nil => exact .pure []
  | cons p ps ih => exact .bind (.literal p) fun v => .bind ih fun vs => .pure (v :: vs)

theorem pushParams_eq : pushParams = fun m =>
    (match m.current with
      | none => unforeseen
      | some i => literals i.params >>= pushAll : Act Unit) m := by
  funext m
  show (match m.current with
    | none => unforeseen
    | some i => literals i.params >>= fun vs => pushAll vs : Act Unit) m = _
  cases m.current <;> rfl

theorem pushParams_of_some {i : Instruction} (hc : m.current = some i) :
    pushParams m = (literals i.params >>= pushAll) m := by
  rw [pushParams_eq]
  simp only [hc]

theorem composed_pushParams : Composed o pushParams := by
  rw [pushParams_eq]
  refine .look (f := fun c _ _ => match c with
    | none => unforeseen
    | some i => literals i.params >>= pushAll) ?_
  intro c s r
  cases c with
  | none => exact .unforeseen
  | some i => exact .bind (composed_literals i.params) fun vs => .pushAll vs

theorem composed_inputLiteral : Composed o inputLiteral := by
  refine .bind composed_pop fun v => .bind .flush fun _ => .bind (.prompt _) fun _ =>
    .bind (.reading _) fun line => ?_
  cases line with
  | none => exact composed_push _
  | some line => exact .bind (.literal line) fun v => composed_push v

theorem composed_inputText (reader : Input → Except Failure (Option String) × Input) :
    Composed o (inputText reader) := by
  refine .bind .flush fun _ => .bind (.reading _) fun s => ?_
  cases s with
  | none => exact composed_push _
  | some s => exact composed_push _

theorem composed_rotate : Composed o rotate :=
  .bind (composed_require 3) fun _ => .bind composed_take fun c => .bind composed_take fun b =>
    .bind composed_take fun a => .bind (composed_push b) fun _ => .bind (composed_push c) fun _ =>
      composed_push a

theorem composed_swap : Composed o swap :=
  .bind (composed_require 2) fun _ => .bind composed_take fun b => .bind composed_take fun a =>
    .bind (composed_push b) fun _ => composed_push a

theorem composed_copy (depth : Nat) : Composed o (copy depth) :=
  .bind (composed_require depth) fun _ => .bind (composed_peek depth) fun v => composed_push v

theorem composed_move (source target : StackName) : Composed o (move source target) :=
  .bind (.requireOn source 1) fun _ => .bind (.peekOn source 1) fun v =>
    .bind (.pushOn target v) fun _ => .bind (.takeFrom source) fun _ => .pure ()

theorem composed_printLine : Composed o printLine :=
  .bind composed_pop fun _ => .write _

/-- **Every operation is put together from the parts it may use.** -/
theorem composed_execute (o : Opcode) : Composed o (execute o) := by
  cases o with
  | push => exact composed_pushParams
  | input => exact composed_inputLiteral
  | getc | getl | getw => exact composed_inputText _
  | rot => exact composed_rotate
  | dup | copyOver => exact composed_copy _
  | pop => exact .bind composed_pop fun _ => .pure ()
  | swap => exact composed_swap
  | yeet | yoink => exact composed_move _ _
  | size => exact .look fun _ s _ => composed_push (.integer (.ofNat s.size))
  | rsize => exact .look fun _ _ r => composed_push (.integer (.ofNat r.size))
  | goto => exact .jump rfl
  | jp | jnp | jn | jnn | jz => exact composed_jumpIf rfl _
  | jnl => exact composed_jumpIfNull rfl
  | gosub => exact .call rfl
  | ret => exact .ret rfl
  | inc | dec | makei | makef | makes | ord | chr => exact composed_unary _
  | add | sub | mul | div | mod | eq | less | more | lesseq | moreeq => exact composed_binary _
  | divmod => exact composed_divideBoth
  | debug => exact .report
  | exit => exact .kill rfl
  | print => exact composed_printLine

/-! ### Parts that know of the stacks of values and the input only -/

/-- The same result with another machine. -/
def mapState (f : Machine → Machine) :
    EStateM.Result Error Machine α → EStateM.Result Error Machine α
  | .ok a m => .ok a (f m)
  | .error e m => .error e (f m)

/-- `f` changes a machine beside its stacks of values and its input. -/
structure Beside (f : Machine → Machine) : Prop where
  stack : ∀ m name, (f m).stack name = m.stack name
  withStack : ∀ m name s, f (m.withStack name s) = (f m).withStack name s
  input : ∀ m, (f m).input = m.input
  withInput : ∀ m i, f { m with input := i } = { f m with input := i }

/-- Looking a parameter up uses the operands only. -/
theorem Beside.reference {f : Machine → Machine} (hf : Beside f) (m : Machine) (param : String) :
    (f m).reference param = ((m.reference param).1, f (m.reference param).2) := by
  unfold Machine.reference
  have hoperands : (f m).operands = m.operands := hf.stack m .operand
  rw [hoperands]
  split
  · rfl
  · split
    · exact congrArg (Prod.mk _) (hf.withStack m .operand _).symm
    · rfl
  · rfl

/-- An act knows of the stacks of values and of the input only: it does not matter whether what is
beside them is changed before or after it. -/
def Local (act : Act α) : Prop :=
  ∀ f, Beside f → ∀ m, act (f m) = mapState f (act m)

theorem local_pure (a : α) : Local (pure a) := fun _ _ _ => rfl

theorem local_onStack (name : StackName) (op : Stack Value → Stack.Result Value α) :
    Local (onStack name op) := by
  intro f hf m
  unfold onStack
  rw [hf.stack]
  cases op (m.stack name) with
  | ok a s => exact congrArg (EStateM.Result.ok a) (hf.withStack m name s).symm
  | error e s => exact congrArg (EStateM.Result.error _) (hf.withStack m name s).symm

theorem local_peekOn (name : StackName) (depth : Nat) : Local (peekOn name depth) := by
  intro f hf m
  unfold peekOn
  rw [hf.stack]
  cases (m.stack name).peek? depth <;> rfl

theorem local_reading (reader : Input → Except Failure α × Input) : Local (reading reader) := by
  intro f hf m
  unfold reading
  rw [hf.input]
  simp only
  cases (reader m.input).1 with
  | ok a => exact congrArg (EStateM.Result.ok a) (hf.withInput m _).symm
  | error e => exact congrArg (EStateM.Result.error _) (hf.withInput m _).symm

theorem local_computed (r : Except Mismatch Value) : Local (computed r) := by
  intro f _ m
  cases r <;> rfl

theorem local_literal (s : String) : Local (literal s) := by
  intro f _ m
  unfold literal
  cases Literal.read s <;> rfl

theorem local_unforeseen : Local unforeseen := fun _ _ _ => rfl

/-! ### Plain parts -/

/-- Only checks of a depth announce their failures, by an event. -/
def Announced (e : Error) : Prop :=
  match e.cause with
  | .underflow .. => True
  | _ => False

/-- An act that has to do with the stacks of values and the host only, and does not announce its
failures. -/
structure Plain (act : Act α) : Prop where
  frame : ∀ m, ∃ operands registers input sink exchanges, endState (act m) =
    { m with operands := operands, registers := registers, input := input, sink := sink,
             exchanges := exchanges }
  error : ∀ {m e m'}, act m = .error e m' → ¬ Announced e

/-- All that is beside the stacks of values and the input stays as it was. -/
theorem Local.plain {act : Act α} (h : Local act)
    (he : ∀ {m e m'}, act m = .error e m' → ¬ Announced e) : Plain act := by
  refine ⟨fun m => ?_, he⟩
  let f (m' : Machine) : Machine :=
    { m with operands := m'.operands, registers := m'.registers, input := m'.input }
  have hf : Beside f :=
    { stack := fun _ name => by cases name <;> rfl
      withStack := fun _ name _ => by cases name <;> rfl
      input := fun _ => rfl
      withInput := fun _ _ => rfl }
  have hm : act m = mapState f (act m) := h f hf m
  refine ⟨(endState (act m)).operands, (endState (act m)).registers, (endState (act m)).input,
    m.sink, m.exchanges, ?_⟩
  cases hr : act m with
  | ok a m' =>
    rw [hr] at hm
    exact (EStateM.Result.ok.inj hm).2
  | error e m' =>
    rw [hr] at hm
    exact (EStateM.Result.error.inj hm).2

theorem not_announced_ofStack (notice : String) (f : Stack.Fault) :
    ¬ Announced { cause := .ofStack notice f } := by
  cases f <;> exact id

theorem plain_pure (a : α) : Plain (pure a) := (local_pure a).plain fun h => by cases h

theorem plain_onStack (name : StackName) (op : Stack Value → Stack.Result Value α) :
    Plain (onStack name op) := by
  refine (local_onStack name op).plain fun h => ?_
  unfold onStack at h
  split at h <;> cases h
  exact not_announced_ofStack _ _

theorem plain_peekOn (name : StackName) (depth : Nat) : Plain (peekOn name depth) := by
  refine (local_peekOn name depth).plain fun h => ?_
  unfold peekOn at h
  split at h <;> cases h
  exact id

theorem plain_reading (reader : Input → Except Failure α × Input) : Plain (reading reader) := by
  refine (local_reading reader).plain fun h => ?_
  unfold reading at h
  simp only at h
  split at h <;> cases h
  exact id

theorem plain_computed (r : Except Mismatch Value) : Plain (computed r) := by
  refine (local_computed r).plain fun h => ?_
  cases r <;> cases h
  exact id

theorem plain_literal (s : String) : Plain (literal s) := by
  refine (local_literal s).plain fun h => ?_
  unfold literal at h
  split at h <;> cases h
  exact id

theorem plain_unforeseen : Plain unforeseen :=
  local_unforeseen.plain fun h => by cases h; exact id

/-- What passes to the host through the sink. -/
theorem plain_exchange (r : Sink → Except Failure (List Exchange)) (next : Sink → Sink) :
    Plain fun m => exchange (r m.sink) { m with sink := next m.sink } := by
  refine ⟨fun m => ?_, fun {m} _ _ h => ?_⟩
  · refine ⟨m.operands, m.registers, m.input, next m.sink, ?_⟩
    cases r m.sink with
    | ok xs => exact ⟨_, rfl⟩
    | error f => exact ⟨_, rfl⟩
  · cases hr : r m.sink with
    | ok xs => rw [hr] at h; cases h
    | error f => rw [hr] at h; cases h; exact id

theorem plain_write (s : String) : Plain (write s) :=
  plain_exchange (fun k => (k.write s).1) fun k => (k.write s).2

theorem plain_flush : Plain flush := plain_exchange (fun k => k.flush.1) fun k => k.flush.2

theorem plain_prompt (s : String) : Plain (prompt s) := by
  refine ⟨fun m => ⟨m.operands, m.registers, m.input, m.sink, ?_⟩, fun h => ?_⟩
  · unfold prompt
    simp only
    split <;> exact ⟨_, rfl⟩
  · unfold prompt at h
    simp only at h
    split at h <;> cases h
    exact id

/-- How deep a stack of values is. -/
def depth (m : Machine) (name : StackName) : Nat := (m.stack name).size

/-- Induction over what is put together, with all plain parts treated as one. -/
@[elab_as_elim]
theorem Composed.induct_plain {motive : {α : Type} → (act : Act α) → Composed o act → Prop}
    (plain : ∀ {α : Type} {act : Act α} (h : Composed o act), Plain act → motive act h)
    (bind : ∀ {α β : Type} {act : Act α} {f : α → Act β} (ha : Composed o act)
      (hf : ∀ a, Composed o (f a)), motive act ha → (∀ a, motive (f a) (hf a)) →
        motive (act >>= f) (.bind ha hf))
    (look : ∀ {α : Type} {f : Option Instruction → Stack Value → Stack Value → Act α}
      (hf : ∀ c s r, Composed o (f c s r)), (∀ c s r, motive (f c s r) (hf c s r)) →
        motive (fun m => f m.current m.operands m.registers m) (.look hf))
    (check : ∀ (name : StackName) (n : Nat), motive (Machine.requireOn name n) (.requireOn name n))
    (jump : ∀ ho, motive (modify Machine.jump) (.jump ho))
    (call : ∀ ho, motive callLine (.call ho))
    (ret : ∀ ho, motive returnToLine (.ret ho))
    (report : motive Machine.report .report)
    (kill : ∀ ho, motive (modify Machine.kill) (.kill ho))
    {α : Type} {act : Act α} (h : Composed o act) : motive act h := by
  induction h with
  | pure a => exact plain _ (plain_pure a)
  | bind ha hf iha ihf => exact bind ha hf iha ihf
  | look hf ih => exact look hf ih
  | requireOn name n => exact check name n
  | pushOn name v => exact plain _ (plain_onStack name _)
  | pushAll vs => exact plain _ (plain_onStack .operand _)
  | peekOn name depth => exact plain _ (plain_peekOn name depth)
  | takeFrom name => exact plain _ (plain_onStack name _)
  | write s => exact plain _ (plain_write s)
  | flush => exact plain _ plain_flush
  | prompt s => exact plain _ (plain_prompt s)
  | reading reader => exact plain _ (plain_reading reader)
  | computed r => exact plain _ (plain_computed r)
  | literal s => exact plain _ (plain_literal s)
  | unforeseen => exact plain _ plain_unforeseen
  | jump ho => exact jump ho
  | call ho => exact call ho
  | ret ho => exact ret ho
  | report => exact report
  | kill ho => exact kill ho

end Stackline.Machine
