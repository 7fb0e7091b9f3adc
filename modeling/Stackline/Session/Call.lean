import Stackline.Machine.Run

/-!
# Calls of a host

What a host can ask of a machine beside driving it: to use its stacks and its output, to move its
pointer, to stop it, and to tell about itself.
-/

namespace Stackline

/-- What a host asks of a machine, short of driving it. -/
inductive Call where
  | kill
  | jump (target : Int) (settled : Bool)
  /-- Look up what a parameter refers to. -/
  | reference (param : String)
  | push (v : Value)
  /-- Push the integers from zero up to a number. -/
  | fill (n : Nat)
  | pop
  | write (s : String)
  /-- Pop a value and write it in angle brackets. -/
  | emit
  /-- Replace the two newest operands by a result; they are lost if there is none. -/
  | apply (op : BinaryOp)
  /-- Fail unless there are so many entries on a stack. -/
  | require (name : StackName) (n : Nat)
  /-- Report an error of its own. -/
  | fail (e : Error)
  /-- Ask for the program as text. -/
  | listing
  /-- Ask for the state in words. -/
  | inspect
  deriving DecidableEq

/-- What a host gets in return. -/
inductive Reply where
  | done
  | flag (b : Bool)
  | count (n : Nat)
  | value (v : Option Value)
  | text (s : String)
  deriving DecidableEq

namespace Call

/-- Push `next`, `next + 1` and so on, `n` numbers in all. -/
def pushFrom (next : Nat) : (n : Nat) → Act Unit
  | 0 => pure ()
  | n + 1 => do
    Machine.push (.integer (.ofNat next))
    pushFrom (next + 1) n

/-- Pop a value and write it in angle brackets. -/
def emitValue : Act Unit := do
  let v ← Machine.pop
  Machine.write ("<" ++ v.display ++ ">\n")

/-- Pop two operands and push what an operation makes of them. -/
def applyPopped (op : BinaryOp) : Act Unit := do
  let r ← Machine.pop
  let l ← Machine.pop
  let v ← Machine.computed (op.apply l r)
  Machine.push v

/-- Look up what a parameter refers to. -/
def lookUp (param : String) : Act (Option Value) := fun m =>
  let (v, m) := m.reference param
  .ok v m

/-- What a machine does on a call. -/
def act : Call → Act Reply
  | kill => do modify Machine.kill; return .done
  | jump target settled => do modify fun m => m.jumpToLine target settled; return .done
  | reference param => do return .value (← lookUp param)
  | push v => do Machine.push v; return .done
  | fill n => do pushFrom 0 n; return .done
  | pop => do return .value (some (← Machine.pop))
  | write s => do Machine.write s; return .done
  | emit => do emitValue; return .done
  | apply op => do applyPopped op; return .done
  | require name n => do Machine.requireOn name n; return .done
  | fail e => throw e
  | listing => do return .text (← get).program.display
  | inspect => do return .text (← get).inspect

end Call

end Stackline
