import Stackline.Machine.Act
import Stackline.Machine.Jump

/-!
# The meaning of the instructions

What each operation does. An operation tells first whether there are enough operands. Those that
compute look at their operands, and take them off only once there is a result, so a failed
operation leaves the stacks as they were.
-/

namespace Stackline.Machine

/-- Replace the newest operand by a result. -/
def unary (op : UnaryOp) : Act Unit := do
  require 1
  let v ← peek 1
  let result ← computed (op.apply v)
  let _ ← take
  push result

/-- Replace the two newest operands by a result, the older one being the left operand. -/
def binary (op : BinaryOp) : Act Unit := do
  require 2
  let l ← peek 2
  let r ← peek 1
  let result ← computed (op.apply l r)
  let _ ← take
  let _ ← take
  push result

/-- Replace the two newest operands by their quotient and their remainder. -/
def divideBoth : Act Unit := do
  require 2
  let l ← peek 2
  let r ← peek 1
  let quotient ← computed (l.divide r)
  let rest ← computed (l.modulus r)
  let _ ← take
  let _ ← take
  push quotient
  push rest

/-- Jump if the newest operand is a number that passes a test. -/
def jumpIf (test : Float → Bool) : Act Unit := do
  require 1
  modify fun m =>
    match m.operands.top?.bind Value.toFloat? with
    | some x => if test x then m.jump else m
    | none => m

/-- Take off the newest operand and jump, if it is null. -/
def jumpIfNull : Act Unit := do
  require 1
  let v ← peek 1
  if v.isNull then
    let _ ← take
    modify jump

/-- Remember the current line and jump. -/
def callLine : Act Unit := fun m =>
  match m.current with
  | none => unforeseen m
  | some i =>
    match m.calls.push i.line with
    | .ok () calls => .ok () ({ m with calls }).jump
    | .error f calls => .error { cause := .ofStack callsFull f } { m with calls }

/-- Go on after the line remembered last. -/
def returnToLine : Act Unit := fun m =>
  match m.calls.pop with
  | .ok line calls => .ok () (({ m with calls }).jumpToLine (line.toNat + 1) true)
  | .error _ calls => .error { cause := .noCall } { m with calls }

/-- Read each literal, the first fault of which counts. -/
def literals : List String → Act (List Value)
  | [] => pure []
  | s :: rest => do
    let v ← literal s
    let vs ← literals rest
    return v :: vs

/-- Push the values of the parameters. -/
def pushParams : Act Unit := do
  let m ← get
  match m.current with
  | none => unforeseen
  | some i =>
    let vs ← literals i.params
    pushAll vs

/-- Pop a prompt, read a line and push the value of the literal on it, or null at the end of
input. -/
def inputLiteral : Act Unit := do
  let v ← pop
  flush
  prompt v.display
  match ← reading Input.readLine with
  | some line =>
    let result ← literal line
    push result
  | none => push .null

/-- Push what a reader gives as a text, or null at the end of input. -/
def inputText (reader : Input → Except Failure (Option String) × Input) : Act Unit := do
  flush
  match ← reading reader with
  | some s => push (.text s)
  | none => push .null

/-- A character as a text. -/
def readCharText (i : Input) : Except Failure (Option String) × Input :=
  match i.readChar with
  | (.ok c, j) => (.ok (c.map String.singleton), j)
  | (.error f, j) => (.error f, j)

/-- `a b c` becomes `b c a`. -/
def rotate : Act Unit := do
  require 3
  let c ← take
  let b ← take
  let a ← take
  push b
  push c
  push a

/-- `a b` becomes `b a`. -/
def swap : Act Unit := do
  require 2
  let b ← take
  let a ← take
  push b
  push a

/-- Push the operand at a depth again. -/
def copy (depth : Nat) : Act Unit := do
  require depth
  let v ← peek depth
  push v

/-- Move the newest entry of one stack to another. -/
def move (source target : StackName) : Act Unit := do
  requireOn source 1
  let v ← peekOn source 1
  pushOn target v
  let _ ← takeFrom source

/-- Note the stacks. -/
def report : Act Unit := modify fun m =>
  let (line, mnemonic) :=
    match m.current with
    | some i => (i.line, i.mnemonic)
    | none => (0, "")
  m.note (.snapshot m.pc line mnemonic m.operands.entries m.registers.entries)

/-- Pop a value and write it on a line. -/
def printLine : Act Unit := do
  let v ← pop
  write (v.display ++ "\n")

/-- What an operation does. -/
def execute : Opcode → Act Unit
  | .push => pushParams
  | .input => inputLiteral
  | .getc => inputText readCharText
  | .getl => inputText Input.readLine
  | .getw => inputText Input.readWord
  | .rot => rotate
  | .dup => copy 1
  | .pop => do let _ ← pop
  | .swap => swap
  | .copyOver => copy 2
  | .yeet => move .operand .register
  | .yoink => move .register .operand
  | .size => do push (.integer (.ofNat (← get).operands.size))
  | .rsize => do push (.integer (.ofNat (← get).registers.size))
  | .goto => modify jump
  | .jp => jumpIf (0 < ·)
  | .jnp => jumpIf (· ≤ 0)
  | .jn => jumpIf (· < 0)
  | .jnn => jumpIf (0 ≤ ·)
  | .jz => jumpIf (· == 0)
  | .jnl => jumpIfNull
  | .gosub => callLine
  | .ret => returnToLine
  | .inc => unary .increment
  | .dec => unary .decrement
  | .add => binary .add
  | .sub => binary .subtract
  | .mul => binary .multiply
  | .div => binary .divide
  | .mod => binary .modulus
  | .divmod => divideBoth
  | .makei => unary .makeInt
  | .makef => unary .makeFloat
  | .makes => unary .makeString
  | .ord => unary .ord
  | .chr => unary .chr
  | .eq => binary .equal
  | .less => binary .less
  | .more => binary .more
  | .lesseq => binary .lessEqual
  | .moreeq => binary .moreEqual
  | .debug => report
  | .exit => modify kill
  | .print => printLine

end Stackline.Machine
