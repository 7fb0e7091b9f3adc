import Stackline.Machine.Basic

/-!
# What a machine does

The parts of which the meaning of the instructions is made. Each changes the state of the machine
and gives a result or fails; the changes made before a failure stay.
-/

namespace Stackline

/-- Something a machine does: it changes the state, and gives a result or fails. -/
abbrev Act (α : Type) := EStateM Error Machine α

namespace Machine

/-! ### Stacks -/

/-- What is said of a full operand stack. -/
def operandsFull : String := "OPERAND STACK FULL"

/-- What is said of a full register stack. -/
def registersFull : String := "REGISTER STACK FULL"

/-- What is said of a full stack of lines. -/
def callsFull : String := "TOO MANY GOSUBS"

/-- What is said of a full stack of values. -/
def fullNotice : StackName → String
  | .operand => operandsFull
  | .register => registersFull

/-- One of the stacks of values. -/
def stack (m : Machine) : StackName → Stack Value
  | .operand => m.operands
  | .register => m.registers

/-- The machine with another stack in the place of one of its stacks of values. -/
def withStack (m : Machine) : StackName → Stack Value → Machine
  | .operand, operands => { m with operands }
  | .register, registers => { m with registers }

/-- Fail with an underflow, in the line of the current instruction, unless a stack is as deep as
expected. -/
def checkDepth (name : StackName) (actual expected : Nat) : Act Unit := fun m =>
  if expected ≤ actual then .ok () m
  else
    let (mnemonic, line) :=
      match m.current with
      | some i => (i.mnemonic, i.line)
      | none => ("", 0)
    .error { cause := .underflow mnemonic name expected actual, line := some line }
      (m.note (.underflow mnemonic line expected actual name))

/-- Fail unless there are `n` entries on a stack. -/
def requireOn (name : StackName) (n : Nat) : Act Unit := fun m =>
  checkDepth name (m.stack name).size n m

/-- Do something to a stack, and fail if that does. -/
def onStack {α : Type} (name : StackName) (op : Stack Value → Stack.Result Value α) : Act α :=
  fun m =>
    match op (m.stack name) with
    | .ok a s => .ok a (m.withStack name s)
    | .error f s => .error { cause := .ofStack (fullNotice name) f } (m.withStack name s)

/-- Put a value on a stack. -/
def pushOn (name : StackName) (v : Value) : Act Unit := onStack name fun s => s.push v

/-- The entry of a stack at a depth, which must be there. -/
def peekOn (name : StackName) (depth : Nat) : Act Value := fun m =>
  match (m.stack name).peek? depth with
  | some v => .ok v m
  | none => .error { cause := .internal } m

/-- Take off the newest entry of a stack. -/
def takeFrom (name : StackName) : Act Value := onStack name Stack.pop

/-! ### Operands -/

/-- Fail unless there are `n` operands. -/
def require (n : Nat) : Act Unit := requireOn .operand n

/-- Push an operand. -/
def push (v : Value) : Act Unit := pushOn .operand v

/-- Push operands, all or none. -/
def pushAll (vs : List Value) : Act Unit := onStack .operand fun s => s.pushAll vs

/-- The operand at a depth, which must be there. -/
def peek (depth : Nat) : Act Value := peekOn .operand depth

/-- Take off the newest operand. -/
def take : Act Value := takeFrom .operand

/-- Take off the newest operand, or fail with an underflow of the current instruction. -/
def pop : Act Value := do
  require 1
  take

/-! ### The host -/

/-- Keep what passed to the host, or fail as the host does. -/
def exchange (r : Except Failure (List Exchange)) : Act Unit := fun m =>
  match r with
  | .ok xs => .ok () { m with exchanges := m.exchanges ++ xs.toArray }
  | .error f => .error { cause := .io f.message } m

/-- Write output. -/
def write (s : String) : Act Unit := fun m =>
  let (r, sink) := m.sink.write s
  exchange r { m with sink }

/-- Bring out what has been written. -/
def flush : Act Unit := fun m =>
  let (r, sink) := m.sink.flush
  exchange r { m with sink }

/-- Offer a prompt. -/
def prompt (s : String) : Act Unit := fun m =>
  let (xs, r) := m.input.prompt s
  let m := { m with exchanges := m.exchanges ++ xs.toArray }
  match r with
  | .ok () => .ok () m
  | .error f => .error { cause := .io f.message } m

/-- Read input by one of its readers. -/
def reading {α : Type} (reader : Input → Except Failure α × Input) : Act α := fun m =>
  let (r, input) := reader m.input
  match r with
  | .ok a => .ok a { m with input }
  | .error f => .error { cause := .io f.message } { m with input }

/-! ### Results -/

/-- What is done where the checks leave nothing to do. -/
def unforeseen : Act Unit := fun m => .error { cause := .internal } m

/-- The result of an operation, or its failure. -/
def computed (r : Except Mismatch Value) : Act Value := fun m =>
  match r with
  | .ok v => .ok v m
  | .error e => .error { cause := .mismatch e } m

/-- Read a literal. -/
def literal (s : String) : Act Value := fun m =>
  match Literal.read s with
  | .ok v => .ok v m
  | .error f => .error { cause := .literal f } m

end Machine

end Stackline
