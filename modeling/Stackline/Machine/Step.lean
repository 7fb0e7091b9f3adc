import Stackline.Machine.Execute

/-!
# Steps

A step executes the instruction at the pointer and moves on past it, unless it jumped. An error gets
the line of the instruction and stops the machine for good; a fault is kept with the machine, and
any other error is reported.
-/

namespace Stackline.Machine

/-- The instruction to execute next, if the machine is running. -/
def fetch? (m : Machine) : Option Instruction :=
  if m.isRunning then m.program.get? m.pc else none

/-- Make an instruction the current one. -/
def begin (m : Machine) (i : Instruction) : Machine :=
  { m.note (.step m.pc i.line i.mnemonic) with current := some i, branched := false }

/-- Move on past the current instruction, unless it set the pointer or stopped the machine. -/
def advance (m : Machine) : Machine :=
  if m.branched || m.killed then m else { m with pc := m.pc + 1 }

/-- Keep a fault. An underflow has been noted where it arose. -/
def keepFault (m : Machine) (i : Instruction) (e : Error) : Machine :=
  let m := if e.kind = .stackUnderflow then m else m.note (.aborted i.line i.mnemonic e)
  { m with faults := m.faults ++ [e] }

/-- What becomes of a machine that has executed an instruction. -/
def conclude (i : Instruction) :
    EStateM.Result Error Machine Unit → EStateM.Result Error Machine Unit
  | .ok () m => .ok () m.advance
  | .error e m =>
    let e := e.inLine i.line
    if e.isFault then .ok () (m.kill.keepFault i e) else .error e m.kill

/-- What an instruction does. Outside the instruction set it does nothing. -/
def executeInstruction (i : Instruction) : Act Unit :=
  match i.opcode with
  | none => modify fun m => m.note (.unimplemented i.line i.mnemonic)
  | some o => execute o

/-- Execute one instruction. -/
def step : Act Unit := fun m =>
  match m.fetch? with
  | none => .ok () m
  | some i => conclude i (executeInstruction i (m.begin i))

end Stackline.Machine
